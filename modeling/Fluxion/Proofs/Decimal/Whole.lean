import Fluxion.Proofs.Decimal.Binary
import Fluxion.Proofs.Decimal.Digits
import Fluxion.Proofs.Scalar.Whole

/-!
Whole doubles and their digits. A whole double is read again from the digits of its
magnitude, without any rounding on the way, since its canonical form is among the
forms of that whole number. Main statement: reading the digits of a whole double gives
the double, up to its sign.
-/

namespace Fluxion.Decimal

open Float.Model UnpackedFloat

/-- The significand at this exponent is the whole number. -/
def Amounts (significand : Nat) (exponent : Int) (whole : Nat) : Prop :=
  (∃ up : Nat, exponent = up ∧ whole = significand * 2 ^ up) ∨
    ∃ down : Nat, exponent = -down ∧ significand = whole * 2 ^ down

theorem amounts_of_magnitude {d : Dyadic} {whole : Nat} (value : d.magnitude? = some whole) :
    Amounts d.significand d.exponent whole := by
  unfold Dyadic.magnitude? at value
  split at value
  · rename_i up exponent
    exact .inl ⟨up, exponent, (Option.some.inj value).symm⟩
  · rename_i down exponent
    dsimp only at value
    split at value
    · rename_i divides
      refine .inr ⟨down + 1, exponent, ?_⟩
      rw [← Option.some.inj value]
      exact (Nat.div_mul_cancel (Nat.dvd_of_mod_eq_zero divides)).symm
    · cases value

theorem magnitude_of_to_int {d : Dyadic} {n : Int} (integer : d.toInt? = some n) :
    ∃ size : Nat, d.magnitude? = some size ∧ n = if d.negative then -(size : Int) else size := by
  unfold Dyadic.toInt? at integer
  cases magnitude : d.magnitude? with
  | none =>
      rw [magnitude] at integer
      cases integer
  | some size =>
      rw [magnitude] at integer
      exact ⟨size, rfl, (Option.some.inj integer).symm⟩

variable {significand whole : Nat} {exponent : Int}

theorem two_pow_lt {n : Nat} (k : Nat) (small : n ≤ 3 * k) (some : k ≠ 0) : 2 ^ n < 10 ^ k :=
  calc 2 ^ n ≤ 2 ^ (3 * k) := Nat.pow_le_pow_right (by decide) small
    _ = (2 ^ 3) ^ k := Nat.pow_mul 2 3 k
    _ < 10 ^ k := Nat.pow_lt_pow_left (by decide) some

theorem digits_bounded (canonical : Canonical significand exponent)
    (amounts : Amounts significand exponent whole) {k : Nat} (large : 400 ≤ k) :
    (Nat.toDigits 10 whole).length ≤ k := by
  have below : whole < 10 ^ k := by
    obtain ⟨positive, bounded, least, most, precise⟩ := canonical
    obtain ⟨up, rfl, rfl⟩ | ⟨down, rfl, same⟩ := amounts
    · have product : significand * 2 ^ up < 2 ^ (53 + up) := by
        rw [Nat.pow_add]
        exact Nat.mul_lt_mul_of_pos_right bounded (Nat.two_pow_pos up)
      exact Nat.lt_trans product (two_pow_lt k (by omega) (by omega))
    · have small : whole ≤ significand := same ▸ Nat.le_mul_of_pos_right _ (Nat.two_pow_pos _)
      have power : 2 ^ 53 < 10 ^ k := two_pow_lt k (by omega) (by omega)
      exact Nat.lt_of_le_of_lt small (Nat.lt_trans bounded power)
  exact (Nat.length_toDigits_le_iff (by decide) (by omega)).2 below

theorem whole_positive (canonical : Canonical significand exponent)
    (amounts : Amounts significand exponent whole) : 0 < whole := by
  obtain ⟨up, -, rfl⟩ | ⟨down, -, same⟩ := amounts
  · exact Nat.mul_pos canonical.positive (Nat.two_pow_pos up)
  · have positive := canonical.positive
    rw [same] at positive
    exact Nat.pos_of_mul_pos_right positive

/-- A whole number is rounded to the double that amounts to it. -/
theorem round_whole (canonical : Canonical significand exponent)
    (amounts : Amounts significand exponent whole) :
    UnpackedFloat.round Format.binary64 .positive whole 0 =
      .finite .positive significand exponent canonical.positive := by
  obtain ⟨up, rfl, rfl⟩ | ⟨down, rfl, rfl⟩ := amounts
  · have target := target_exponent canonical.aligned up
    have rounded := round_exact canonical.aligned .positive up
    rw [Int.sub_self] at target rounded
    have amount : (0 - (up : Int)).toNat = 0 := by omega
    simp only [UnpackedFloat.round, target, decreaseExponent, amount]
    exact rounded
  · have positive := whole_positive canonical (.inr ⟨down, rfl, rfl⟩)
    have target := target_exponent canonical.aligned 0
    have rounded := round_exact canonical.aligned .positive 0
    have total : totalExponent whole 0 = totalExponent (whole * 2 ^ down) (-down) := by
      rw [totalExponent, totalExponent, log_shifted positive]
      omega
    have amount : (0 - -(down : Int)).toNat = down := by omega
    have lowered : (0 : Int) - down = -down := Int.zero_sub _
    simp only [Nat.pow_zero, Nat.mul_one, Int.natCast_zero, Int.sub_zero] at target rounded
    simp only [UnpackedFloat.round, total, target, decreaseExponent, amount, Nat.shiftLeft_eq,
      lowered, rounded]

theorem unpack_of_model (canonical : Canonical significand exponent) (sign : Sign) :
    (Float.Model.pack (.finite sign significand exponent canonical.positive)).unpack =
      .finite sign significand exponent canonical.positive :=
  unpack_pack canonical sign

theorem mul_one_exact (canonical : Canonical significand exponent) {x : Float}
    (unpacked : x.toModel.unpack = .finite .positive significand exponent canonical.positive) :
    (x * Float.ofBits 0x3FF0000000000000).toModel.unpack =
      .finite .positive significand exponent canonical.positive := by
  have one : (Float.ofBits 0x3FF0000000000000).toModel.unpack =
      .finite .positive (2 ^ 52) (-52) (by decide) := rfl
  show (Float.Model.pack (UnpackedFloat.mul Format.binary64 x.toModel.unpack
    (Float.ofBits 0x3FF0000000000000).toModel.unpack)).unpack = _
  rw [unpacked, one, UnpackedFloat.mul]
  have rounded := round_exact canonical.aligned .positive 52
  have same : roundWithAccuracy Format.binary64 (Sign.positive * Sign.positive)
      (significand * 2 ^ 52) (exponent + -52) .exact =
      .finite .positive significand exponent canonical.positive := rounded
  rw [same]
  exact unpack_of_model canonical .positive

theorem of_scientific_whole (canonical : Canonical significand exponent)
    (amounts : Amounts significand exponent whole) :
    (Float.ofScientific whole false 0).toModel.unpack =
      .finite .positive significand exponent canonical.positive := by
  have positive := whole_positive canonical amounts
  unfold Float.ofScientific
  -- small numbers are converted as words and multiplied by one, larger ones are rounded
  split
  · rename_i fast
    have word : whole.toUInt64.toNat = whole := by
      have small : whole < 2 ^ 64 := Nat.lt_trans fast.1 (by decide)
      exact UInt64.toNat_ofNat_of_lt small
    have natural : UnpackedFloat.ofNat Format.binary64 whole =
        .finite .positive significand exponent canonical.positive := by
      have above : 0 < (whole : Int) := Int.natCast_pos.2 positive
      have greater : compare (whole : Int) 0 = .gt := Int.compare_eq_gt.2 above
      rw [UnpackedFloat.ofNat, UnpackedFloat.ofInt, UnpackedFloat.normalize, greater]
      exact round_whole canonical amounts
    have unpacked : whole.toUInt64.toFloat.toModel.unpack =
        .finite .positive significand exponent canonical.positive := by
      show (Float.Model.pack (UnpackedFloat.ofNat Format.binary64 whole.toUInt64.toNat)).unpack = _
      rw [word, natural]
      exact unpack_of_model canonical .positive
    exact mul_one_exact canonical unpacked
  · have scaled : roundWithAccuracy Format.binary64 .positive (whole * 2 ^ 53) (-53) .exact =
        .finite .positive significand exponent canonical.positive := by
      obtain ⟨up, rfl, rfl⟩ | ⟨down, rfl, same⟩ := amounts
      · have rounded := round_exact canonical.aligned .positive (up + 53)
        have lowered : (up : Int) - ((up + 53 : Nat) : Int) = -53 := by omega
        rwa [lowered, Nat.pow_add, ← Nat.mul_assoc] at rounded
      · have narrow : down < 53 := by
          have bounded : 2 ^ down < 2 ^ 53 :=
            Nat.lt_of_le_of_lt (same ▸ Nat.le_mul_of_pos_left _ positive) canonical.bounded
          exact (Nat.pow_lt_pow_iff_right (by decide)).1 bounded
        have rounded := round_exact canonical.aligned .positive (53 - down)
        have lowered : -(down : Int) - ((53 - down : Nat) : Int) = -53 := by omega
        have raised : significand * 2 ^ (53 - down) = whole * 2 ^ 53 := by
          rw [same, Nat.mul_assoc, ← Nat.pow_add, Nat.add_sub_cancel' (Nat.le_of_lt narrow)]
        rwa [lowered, raised] at rounded
    show (Float.Model.pack (UnpackedFloat.ofScientific Format.binary64 whole 0)).unpack = _
    have product : UnpackedFloat.ofScientific Format.binary64 whole 0 =
        .finite .positive significand exponent canonical.positive := by
      have least : ¬ (0 : Int) < -((2 ^ 11 : Int) + whole.log2) := by omega
      rw [UnpackedFloat.ofScientific, dif_neg (Nat.ne_of_gt positive), if_neg (by decide),
        if_neg least, if_pos (Int.le_refl 0), UnpackedFloat.mul]
      rw [← scaled, Nat.shiftLeft_eq, Int.toNat_zero, Nat.pow_zero, Nat.mul_one]
      rfl
    rw [product]
    exact unpack_of_model canonical .positive

theorem magnitude_whole (canonical : Canonical significand exponent)
    (amounts : Amounts significand exponent whole) :
    (Numeral.magnitude whole 0).toModel.unpack =
      .finite .positive significand exponent canonical.positive := by
  have positive := whole_positive canonical amounts
  have short := digits_bounded canonical amounts (Nat.le_refl 400)
  have notTiny : ¬ (whole = 0 ∨
      (0 : Int) + (Nat.toDigits 10 whole).length < -Numeral.exponentLimit) := by
    rw [Numeral.exponentLimit]
    omega
  have notHuge : ¬ Numeral.exponentLimit < (0 : Int) + (Nat.toDigits 10 whole).length := by
    rw [Numeral.exponentLimit]
    omega
  unfold Numeral.magnitude
  rw [if_neg notTiny, if_neg notHuge]
  exact of_scientific_whole canonical amounts

theorem read_whole (n : Nat) :
    Scalar.read? (String.ofList (Nat.toDigits 10 n)) = some (Numeral.magnitude n 0) :=
  congrArg (Option.map Numeral.toFloat) (read_to_digits n)

theorem unpack_of_whole {value : Float} {n : Int} (whole : Scalar.toInt? value = some n) :
    (n = 0 ∧ ∃ sign, value.toModel.unpack = .zero sign) ∨
      ∃ (significand : Nat) (exponent : Int) (canonical : Canonical significand exponent),
        Amounts significand exponent n.natAbs ∧
          value.toModel.unpack =
            .finite (signOf (n < 0)) significand exponent canonical.positive := by
  obtain ⟨d, valued, integer⟩ := Option.bind_eq_some_iff.1 whole
  obtain ⟨size, magnitude, rfl⟩ := magnitude_of_to_int integer
  have amounts := amounts_of_magnitude magnitude
  obtain ⟨zero, unpacked⟩ | ⟨canonical, unpacked⟩ := represents_of_float valued
  · have empty : size = 0 := by
      rw [zero] at amounts
      obtain ⟨up, -, same⟩ | ⟨down, -, same⟩ := amounts
      · simpa using same
      · exact (Nat.mul_eq_zero.1 same.symm).resolve_right (Nat.ne_of_gt (Nat.two_pow_pos down))
    subst empty
    exact .inl ⟨by simp, _, unpacked⟩
  · have positive := whole_positive canonical amounts
    refine .inr ⟨_, _, canonical, ?_, ?_⟩
    · cases d.negative with
      | false => exact amounts
      | true => simpa using amounts
    · rw [unpacked]
      congr 2
      cases d.negative with
      | false => simp
      | true => simpa using positive

theorem is_negative_unpack (value : Float) :
    Scalar.isNegative value = value.toModel.unpack.lt (.zero .positive) := by
  have zero : (0.0 : Float).toModel.unpack = .zero .positive := rfl
  have below : Scalar.isNegative value =
      decide (decide (value.toModel.unpack.lt (0.0 : Float).toModel.unpack = true) = true) := rfl
  rw [below, zero, Bool.decide_eq_true, Bool.decide_eq_true]

theorem is_non_negative_unpack (value : Float) :
    Scalar.isNonNegative value = (UnpackedFloat.zero .positive).le value.toModel.unpack := by
  have zero : (0.0 : Float).toModel.unpack = .zero .positive := rfl
  have above : Scalar.isNonNegative value =
      decide (decide ((0.0 : Float).toModel.unpack.le value.toModel.unpack = true) = true) := rfl
  rw [above, zero, Bool.decide_eq_true, Bool.decide_eq_true]

theorem non_negative_of_whole {value : Float} {n : Nat}
    (whole : Scalar.toInt? value = some (n : Int)) : Scalar.isNonNegative value = true := by
  rw [is_non_negative_unpack]
  obtain ⟨-, sign, unpacked⟩ | ⟨significand, exponent, canonical, -, unpacked⟩ :=
    unpack_of_whole whole
  · rw [unpacked]
    rfl
  · have unsigned : ¬ (n : Int) < 0 := by omega
    rw [unpacked, decide_eq_false unsigned]
    rfl

theorem same_unpack (x y : Float) :
    Scalar.same x y = x.toModel.unpack.beq y.toModel.unpack := rfl

theorem neg_unpack (canonical : Canonical significand exponent) {value : Float} {sign : Sign}
    (unpacked : value.toModel.unpack = .finite sign significand exponent canonical.positive) :
    (Scalar.neg value).toModel.unpack =
      .finite (-sign) significand exponent canonical.positive := by
  show (Float.Model.pack value.toModel.unpack.neg).unpack = _
  rw [unpacked]
  exact unpack_of_model canonical (-sign)

/-- Doubles are written as their digits and read again without loss. -/
theorem whole_numbers : WholeNumbers Float where
  negative {value n} whole := by
    rw [is_negative_unpack]
    obtain ⟨rfl, sign, unpacked⟩ | ⟨significand, exponent, canonical, amounts, unpacked⟩ :=
      unpack_of_whole whole
    · rw [unpacked]
      rfl
    · rw [unpacked]
      by_cases negative : n < 0
      · rw [decide_eq_true negative]
        rfl
      · rw [decide_eq_false negative]
        rfl
  reads {value n} whole := by
    refine ⟨_, read_whole _, ?_⟩
    rw [same_unpack]
    obtain ⟨rfl, sign, unpacked⟩ | ⟨significand, exponent, canonical, amounts, unpacked⟩ :=
      unpack_of_whole whole
    · rw [if_neg (by decide), unpacked]
      rfl
    · have same : (UnpackedFloat.finite .positive significand exponent canonical.positive).beq
          (.finite .positive significand exponent canonical.positive) = true := by
        simp [UnpackedFloat.beq, UnpackedFloat.compare]
      rw [magnitude_whole canonical amounts]
      by_cases negative : n < 0
      · rw [decide_eq_true negative] at unpacked
        rw [if_pos negative, neg_unpack canonical unpacked]
        exact same
      · rw [decide_eq_false negative] at unpacked
        rw [if_neg negative, unpacked]
        exact same

end Fluxion.Decimal
