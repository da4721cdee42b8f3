import Fluxion.Proofs.Decimal.Magnitude

/-!
The doubles of plain digits. A whole number has a form of its own among the doubles as
long as it takes no more than 53 bits; a larger one is rounded to a scale that is whole
as well, or it is out of range. Main statement: the double of a run of digits is whole
and not negative, or it is the infinity.
-/

namespace Fluxion.Decimal

open Float.Model UnpackedFloat

theorem magnitude_of_amounts {d : Dyadic} {whole : Nat}
    (amounts : Amounts d.significand d.exponent whole) : d.magnitude? = some whole := by
  unfold Dyadic.magnitude?
  obtain ⟨up, scale, rfl⟩ | ⟨down, scale, same⟩ := amounts
  · rw [scale]
    rfl
  · cases down with
    | zero =>
        have level : d.exponent = Int.ofNat 0 := scale
        rw [level, same]
        show some (whole * 2 ^ 0 * 2 ^ 0) = some whole
        rw [Nat.pow_zero, Nat.mul_one, Nat.mul_one]
    | succ down =>
        have negative : d.exponent = Int.negSucc down := scale
        have divides : d.significand % 2 ^ (down + 1) = 0 := by rw [same, Nat.mul_mod_left]
        rw [negative]
        show (if d.significand % 2 ^ (down + 1) = 0 then
          some (d.significand / 2 ^ (down + 1)) else none) = some whole
        rw [if_pos divides, same, Nat.mul_div_cancel _ (Nat.two_pow_pos _)]

theorem finite_of_whole {value : Float} {n : Int} (whole : Scalar.toInt? value = some n) :
    Scalar.isFinite value = true := by
  show value.toModel.unpack.isFinite = true
  obtain ⟨-, sign, unpacked⟩ | ⟨_, _, _, -, unpacked⟩ := unpack_of_whole whole <;>
    rw [unpacked] <;> rfl

section

variable {x y : Float} {sign : Sign} {negative : Bool} {significand whole : Nat} {exponent : Int}

theorem to_int_of_zero (zero : x.toModel.unpack = .zero sign) : Scalar.toInt? x = some 0 := by
  cases value : Dyadic.ofFloat? x with
  | none =>
      have infinite := not_finite_of_no_value value
      rw [zero] at infinite
      cases infinite
  | some d =>
      have nothing : d.significand = 0 := by
        rcases represents_of_float value with ⟨nothing, -⟩ | ⟨canonical, unpacked⟩
        · exact nothing
        · rw [zero] at unpacked
          cases unpacked
      have magnitude : d.magnitude? = some 0 := by
        unfold Dyadic.magnitude?
        rw [nothing]
        cases d.exponent with
        | ofNat up => simp
        | negSucc down => simp
      show (Dyadic.ofFloat? x).bind Dyadic.toInt? = some 0
      rw [value, Option.bind_some, Dyadic.toInt?, magnitude]
      simp

theorem to_int_of_finite (canonical : Canonical significand exponent)
    (amounts : Amounts significand exponent whole)
    (unpacked : x.toModel.unpack =
      .finite (signOf negative) significand exponent canonical.positive) :
    Scalar.toInt? x = some (if negative then -(whole : Int) else whole) := by
  cases value : Dyadic.ofFloat? x with
  | none =>
      have infinite := not_finite_of_no_value value
      rw [unpacked] at infinite
      cases infinite
  | some d =>
      rcases represents_of_float value with ⟨-, zero⟩ | ⟨canonical', unpacked'⟩
      · rw [unpacked] at zero
        cases zero
      · rw [unpacked] at unpacked'
        injection unpacked' with sameSign sameSignificand sameExponent
        obtain rfl := sign_of_injective sameSign
        subst sameSignificand sameExponent
        show (Dyadic.ofFloat? x).bind Dyadic.toInt? = _
        rw [value, Option.bind_some, Dyadic.toInt?, magnitude_of_amounts amounts]
        rfl

theorem to_int_of_same {n : Int} (same : Scalar.same x y = true)
    (whole : Scalar.toInt? y = some n) : Scalar.toInt? x = some n := by
  have same := same_symm same
  obtain ⟨rfl, sign, zero⟩ | ⟨significand, exponent, canonical, amounts, unpacked⟩ :=
    unpack_of_whole whole
  · obtain ⟨sign', zero'⟩ := zero_of_same zero same
    exact to_int_of_zero zero'
  · rw [to_int_of_finite canonical amounts (unpack_of_same unpacked same)]
    congr 1
    by_cases negative : n < 0
    · rw [if_pos (decide_eq_true negative)]
      omega
    · rw [if_neg (by simpa using negative)]
      omega

end

theorem canonical_of_small {n : Nat} (positive : 0 < n) (small : n < 2 ^ 53) :
    ∃ significand exponent, Canonical significand exponent ∧ Amounts significand exponent n := by
  have width : n.log2 < 53 := (Nat.log2_lt (Nat.ne_of_gt positive)).2 small
  have low : 2 ^ n.log2 ≤ n := Nat.log2_self_le (Nat.ne_of_gt positive)
  have high : n < 2 ^ (n.log2 + 1) := Nat.lt_log2_self
  refine ⟨n * 2 ^ (52 - n.log2), -(52 - n.log2 : Nat), ⟨?_, ?_, ?_, ?_, .inl ?_⟩,
    .inr ⟨52 - n.log2, rfl, rfl⟩⟩
  · exact Nat.mul_pos positive (Nat.two_pow_pos _)
  · calc n * 2 ^ (52 - n.log2) < 2 ^ (n.log2 + 1) * 2 ^ (52 - n.log2) :=
          Nat.mul_lt_mul_of_pos_right high (Nat.two_pow_pos _)
      _ = 2 ^ 53 := by rw [← Nat.pow_add]; congr 1; omega
  · omega
  · omega
  · calc 2 ^ 52 = 2 ^ n.log2 * 2 ^ (52 - n.log2) := by rw [← Nat.pow_add]; congr 1; omega
      _ ≤ n * 2 ^ (52 - n.log2) := Nat.mul_le_mul_right _ low

/-- A larger number is rounded on a scale of whole numbers, one that goes with its width. -/
theorem round_large {n : Nat} (large : 2 ^ 53 ≤ n) :
    ∃ significand exponent, ∃ aligned : Aligned significand exponent, 0 ≤ exponent ∧
      exponent + 51 ≤ n.log2 ∧
      roundWithAccuracy Format.binary64 .positive (n * 2 ^ 53) (-53) .exact =
        .finite .positive significand exponent aligned.positive := by
  have positive : 0 < n := Nat.lt_of_lt_of_le (Nat.two_pow_pos 53) large
  have width : 53 ≤ n.log2 := (Nat.le_log2 (Nat.ne_of_gt positive)).2 large
  have low : 2 ^ n.log2 ≤ n := Nat.log2_self_le (Nat.ne_of_gt positive)
  have aims : Format.binary64.targetExponent (totalExponent (n * 2 ^ 53) (-53)) =
      -53 + ((n.log2 + 1 : Nat) : Int) := by
    rw [totalExponent, log_shifted positive]
    show max (((n.log2 + 53 : Nat) : Int) + 1 + -53 - 53) (-1074) = _
    omega
  rcases round_cases .positive (Nat.mul_pos positive (Nat.two_pow_pos 53)) aims with
    ⟨small, -⟩ | ⟨aligned, same⟩ | ⟨aligned, -, same⟩
  · rw [Nat.pow_succ] at small
    omega
  · exact ⟨_, _, aligned, by omega, by omega, same⟩
  · exact ⟨_, _, aligned, by omega, by omega, same⟩

def infinite : Float := 1.0 / 0.0

theorem of_scientific_large {n : Nat} (large : 2 ^ 53 ≤ n) :
    (∃ whole : Nat, Scalar.toInt? (Float.ofScientific n false 0) = some (whole : Int)) ∨
      1023 ≤ n.log2 ∧ Float.ofScientific n false 0 = infinite := by
  obtain ⟨significand, exponent, aligned, above, wide, rounded⟩ := round_large large
  have slow : Float.ofScientific n false 0 =
      ⟨Float.Model.pack (.finite .positive significand exponent aligned.positive)⟩ := by
    have nonzero : n ≠ 0 := by omega
    have least : ¬ (0 : Int) < -((2 ^ 11 : Int) + n.log2) := by omega
    have product : UnpackedFloat.ofScientific Format.binary64 n 0 =
        .finite .positive significand exponent aligned.positive := by
      rw [UnpackedFloat.ofScientific, dif_neg nonzero, if_neg (by decide), if_neg least,
        if_pos (Int.le_refl 0), UnpackedFloat.mul]
      rw [← rounded, Nat.shiftLeft_eq, Int.toNat_zero, Nat.pow_zero, Nat.mul_one]
      rfl
    rw [← product]
    unfold Float.ofScientific
    exact dif_neg (by omega)
  rw [slow]
  rcases lt_or_ge 971 exponent with beyond | most
  · refine .inr ⟨by omega, ?_⟩
    rw [pack_of_overflow .positive aligned.positive beyond]
    rfl
  · left
    obtain ⟨up, rfl⟩ := Int.eq_ofNat_of_zero_le above
    have canonical := aligned.canonical most
    have amounts : Amounts significand up (significand * 2 ^ up) := .inl ⟨up, rfl, rfl⟩
    have unpacked := unpack_of_model canonical (signOf false)
    exact ⟨_, to_int_of_finite canonical amounts unpacked⟩

/-- The double of a whole number is whole, or it is the infinity, but that only where the
number is near the end of the finite ones. -/
theorem of_nat_cases (n : Nat) :
    (∃ whole : Nat, Scalar.toInt? (Scalar.ofNat n : Float) = some (whole : Int)) ∨
      1023 ≤ n.log2 ∧ (Scalar.ofNat n : Float) = infinite := by
  show (∃ whole : Nat, Scalar.toInt? (Float.ofScientific n false 0) = some (whole : Int)) ∨
    1023 ≤ n.log2 ∧ Float.ofScientific n false 0 = infinite
  rcases Nat.eq_zero_or_pos n with rfl | positive
  · have zero : (Float.ofScientific 0 false 0).toModel.unpack = .zero .positive := rfl
    exact .inl ⟨0, to_int_of_zero zero⟩
  rcases Nat.lt_or_ge n (2 ^ 53) with small | large
  · obtain ⟨significand, exponent, canonical, amounts⟩ := canonical_of_small positive small
    have unpacked : (Float.ofScientific n false 0).toModel.unpack =
        .finite (signOf false) significand exponent canonical.positive :=
      of_scientific_whole canonical amounts
    exact .inl ⟨n, to_int_of_finite canonical amounts unpacked⟩
  · exact of_scientific_large large

theorem magnitude_cases (n : Nat) :
    (∃ whole : Nat, Scalar.toInt? (Numeral.magnitude n 0) = some (whole : Int)) ∨
      Numeral.magnitude n 0 = infinite := by
  rcases Nat.eq_zero_or_pos n with rfl | positive
  · have nothing : Numeral.magnitude 0 0 = 0.0 := by
      unfold Numeral.magnitude
      exact if_pos (.inl rfl)
    have zero : (0.0 : Float).toModel.unpack = .zero .positive := rfl
    rw [nothing]
    exact .inl ⟨0, to_int_of_zero zero⟩
  have notTiny : ¬ (n = 0 ∨
      (0 : Int) + (Nat.toDigits 10 n).length < -Numeral.exponentLimit) := by
    rw [Numeral.exponentLimit]
    omega
  unfold Numeral.magnitude
  rw [if_neg notTiny]
  by_cases huge : Numeral.exponentLimit < (0 : Int) + (Nat.toDigits 10 n).length
  · rw [if_pos huge]
    exact .inr rfl
  · rw [if_neg huge]
    exact (of_nat_cases n).imp_right And.right

end Fluxion.Decimal
