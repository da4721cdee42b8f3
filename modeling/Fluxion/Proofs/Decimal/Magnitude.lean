import Fluxion.Proofs.Decimal.Equality
import Fluxion.Proofs.Decimal.Rounding
import Fluxion.Proofs.Scalar.Range

/-!
The range of the doubles. Only numbers on the largest scale have a double out of range,
and such numbers differ from small ones by more than any tolerance; what is below the
tolerance is too small to lead a difference out of range. Main statement: the doubles
satisfy what coming to rest asks of a range.
-/

namespace Fluxion.Decimal

open Float.Model UnpackedFloat

theorem tolerance_unpack : (Scalar.tolerance : Float).toModel.unpack =
    .finite .positive 4722366482869645 (-72) (by decide) := rfl

theorem zero_unpack : (Scalar.ofNat 0 : Float).toModel.unpack = .zero .positive := rfl

theorem one_unpack :
    (Scalar.ofNat 1 : Float).toModel.unpack = .finite .positive (2 ^ 52) (-52) (by decide) := rfl

theorem two_unpack :
    (Scalar.ofNat 2 : Float).toModel.unpack = .finite .positive (2 ^ 52) (-51) (by decide) := rfl

section

variable {x y : Float}

theorem finite_or_none (result : Float) :
    Double.finite? result = none ↔ result.toModel.unpack.isFinite = false := by
  show (if result.isFinite then some result else none) = none ↔ result.isFinite = false
  simp

theorem add_eq_none : Scalar.add x y = none ↔ (Float.Model.pack
    (UnpackedFloat.add Format.binary64 x.toModel.unpack y.toModel.unpack)).unpack.isFinite =
      false :=
  finite_or_none (x + y)

theorem sub_eq_none : Scalar.sub x y = none ↔ (Float.Model.pack
    (UnpackedFloat.sub Format.binary64 x.toModel.unpack y.toModel.unpack)).unpack.isFinite =
      false :=
  finite_or_none (x - y)

theorem mul_eq_none : Scalar.mul x y = none ↔ (Float.Model.pack
    (UnpackedFloat.mul Format.binary64 x.toModel.unpack y.toModel.unpack)).unpack.isFinite =
      false :=
  finite_or_none (x * y)

theorem near_unpack (epsilon : Float) : Scalar.near epsilon x y =
    (Float.Model.pack (Float.Model.pack (UnpackedFloat.sub Format.binary64 y.toModel.unpack
      x.toModel.unpack)).unpack.abs).unpack.lt epsilon.toModel.unpack := by
  have shown : Scalar.near epsilon x y =
      decide (decide ((y - x).abs.toModel.unpack.lt epsilon.toModel.unpack = true) = true) := rfl
  rw [shown, Bool.decide_eq_true, Bool.decide_eq_true]
  rfl

theorem not_finite_of_no_value (value : Dyadic.ofFloat? x = none) :
    x.toModel.unpack.isFinite = false := by
  let bits : BitVec Format.binary64.numBits := x.toModel.toBits.toBitVec
  have numeral : x.toBits.toNat = bits.toNat := rfl
  have beyond : bits.toNat / 2 ^ 52 % 2 ^ 11 = 2047 := by
    simp only [Dyadic.ofFloat?, Dyadic.hiddenBit, numeral] at value
    split at value
    · assumption
    · split at value <;> cases value
  have most : unpackExponent bits = -1#11 := by
    rw [← BitVec.toNat_inj, unpack_exponent_to_nat, beyond]
    rfl
  show (UnpackedFloat.unpack Format.binary64 bits).isFinite = false
  simp only [UnpackedFloat.unpack, most, if_true]
  split <;> rfl

theorem unpack_of_finite (finite : Scalar.isFinite x = true) :
    (∃ sign, x.toModel.unpack = .zero sign) ∨
      ∃ sign significand exponent, ∃ canonical : Canonical significand exponent,
        x.toModel.unpack = .finite sign significand exponent canonical.positive := by
  cases value : Dyadic.ofFloat? x with
  | none =>
      have finite : x.toModel.unpack.isFinite = true := finite
      rw [not_finite_of_no_value value] at finite
      cases finite
  | some d =>
      rcases represents_of_float value with ⟨-, zero⟩ | ⟨canonical, unpacked⟩
      · exact .inl ⟨_, zero⟩
      · exact .inr ⟨_, _, _, canonical, unpacked⟩

end

section

variable {significand : Nat} {exponent : Int}

theorem normalize_nonzero {n : Int} (nonzero : n ≠ 0) (exponent : Int) (zeroSign : Sign) :
    UnpackedFloat.normalize Format.binary64 n exponent zeroSign =
      UnpackedFloat.round Format.binary64 (signOf (n < 0)) n.natAbs exponent := by
  rcases Int.lt_or_gt_of_ne nonzero with below | above
  · rw [UnpackedFloat.normalize, Int.compare_eq_lt.2 below, decide_eq_true below]
    show UnpackedFloat.round _ .negative (-n).toNat _ = _
    congr 1
    omega
  · rw [UnpackedFloat.normalize, Int.compare_eq_gt.2 above,
      decide_eq_false (Int.not_lt.2 (Int.le_of_lt above))]
    show UnpackedFloat.round _ .positive n.toNat _ = _
    congr 1
    omega

/-- What is below the middle between the largest double and the power of two that follows is
rounded to a number in range. -/
theorem round_in_range (sign : Sign) {n top : Nat} (positive : 0 < n) (reach : exponent + top = 971)
    (below : 2 * n < (2 ^ 54 - 1) * 2 ^ top) :
    (Float.Model.pack
      (UnpackedFloat.round Format.binary64 sign n exponent)).unpack.isFinite = true := by
  rcases round_finite sign positive reach below with none | ⟨_, _, canonical, some⟩
  · rw [none]
    cases sign <;> rfl
  · rw [some, unpack_of_model canonical]
    rfl

theorem normalize_finite {n : Int} {top : Nat} (reach : exponent + top = 971)
    (below : 2 * n.natAbs < (2 ^ 54 - 1) * 2 ^ top) :
    (Float.Model.pack
      (UnpackedFloat.normalize Format.binary64 n exponent .positive)).unpack.isFinite = true := by
  by_cases zero : n = 0
  · subst zero
    have none : UnpackedFloat.normalize Format.binary64 0 exponent .positive = .zero .positive := by
      rw [UnpackedFloat.normalize, Int.compare_eq_eq.2 rfl]
    rw [none]
    rfl
  · rw [normalize_nonzero zero]
    exact round_in_range _ (Int.natAbs_pos.2 zero) reach below

theorem add_finite_finite (sign sign' : Sign) {significand' : Nat} {exponent' : Int}
    (positive : 0 < significand) (positive' : 0 < significand') :
    UnpackedFloat.add Format.binary64 (.finite sign significand exponent positive)
      (.finite sign' significand' exponent' positive') =
      UnpackedFloat.normalize Format.binary64
        (sign.apply ((significand * 2 ^ (exponent - min exponent exponent').toNat : Nat) : Int) +
          sign'.apply ((significand' * 2 ^ (exponent' - min exponent exponent').toNat : Nat) : Int))
        (min exponent exponent') .positive := by
  simp only [UnpackedFloat.add, decreaseExponent, Nat.shiftLeft_eq]

theorem sub_finite_finite (sign sign' : Sign) {significand' : Nat} {exponent' : Int}
    (positive : 0 < significand) (positive' : 0 < significand') :
    UnpackedFloat.sub Format.binary64 (.finite sign significand exponent positive)
      (.finite sign' significand' exponent' positive') =
      UnpackedFloat.normalize Format.binary64
        (sign.apply ((significand * 2 ^ (exponent - min exponent exponent').toNat : Nat) : Int) -
          sign'.apply ((significand' * 2 ^ (exponent' - min exponent exponent').toNat : Nat) : Int))
        (min exponent exponent') .positive := by
  simp only [UnpackedFloat.sub, decreaseExponent, Nat.shiftLeft_eq]

theorem nat_abs_apply_sub (sign sign' : Sign) (m n : Nat) :
    (sign.apply (m : Int) - sign'.apply (n : Int)).natAbs ≤ m + n ∧
      n ≤ (sign.apply (m : Int) - sign'.apply (n : Int)).natAbs + m := by
  cases sign <;> cases sign' <;> simp only [Sign.apply] <;> omega

theorem add_self_form (positive : 0 < significand) (sign : Sign) :
    UnpackedFloat.add Format.binary64 (.finite sign significand exponent positive)
      (.finite sign significand exponent positive) =
        UnpackedFloat.round Format.binary64 sign (significand * 2) exponent := by
  generalize double : sign.apply (significand : Int) + sign.apply (significand : Int) = n
  have parts : n ≠ 0 ∧ n.natAbs = significand * 2 ∧ signOf (n < 0) = sign := by
    cases sign with
    | positive =>
        simp only [Sign.apply] at double
        exact ⟨by omega, by omega, by rw [decide_eq_false (by omega)]; rfl⟩
    | negative =>
        simp only [Sign.apply] at double
        exact ⟨by omega, by omega, by rw [decide_eq_true (by omega)]; rfl⟩
  obtain ⟨nonzero, amount, signs⟩ := parts
  rw [add_finite_finite, Int.min_self, Int.sub_self, Int.toNat_zero, Nat.pow_zero, Nat.mul_one,
    double, normalize_nonzero nonzero, signs, amount]

/-- Twice a double of canonical form is out of range only on the largest scale. -/
theorem top_of_twice (canonical : Canonical significand exponent) {sign : Sign}
    (outside : (Float.Model.pack (UnpackedFloat.add Format.binary64
      (.finite sign significand exponent canonical.positive)
      (.finite sign significand exponent canonical.positive))).unpack.isFinite = false) :
    exponent = 971 ∧ 2 ^ 52 ≤ significand := by
  obtain ⟨positive, bounded, least, most, precise⟩ := canonical
  by_contra inside
  have below : 2 * (significand * 2) < (2 ^ 54 - 1) * 2 ^ (971 - exponent).toNat := by
    rcases Int.lt_or_eq_of_le most with lower | rfl
    · obtain ⟨more, same⟩ : ∃ more, (971 - exponent).toNat = more + 1 :=
        ⟨(970 - exponent).toNat, by omega⟩
      have room := Nat.two_pow_pos more
      rw [same, Nat.pow_succ]
      omega
    · show _ < (2 ^ 54 - 1) * 2 ^ 0
      omega
  have reach : exponent + (971 - exponent).toNat = 971 := by omega
  rw [add_self_form, round_in_range sign (by omega) reach below] at outside
  cases outside

theorem twice_form (canonical : Canonical significand exponent) (sign : Sign) :
    UnpackedFloat.mul Format.binary64 (.finite .positive (2 ^ 52) (-51) (by decide))
      (.finite sign significand exponent canonical.positive) =
    UnpackedFloat.add Format.binary64 (.finite sign significand exponent canonical.positive)
      (.finite sign significand exponent canonical.positive) := by
  obtain ⟨positive, bounded, least, most, precise⟩ := canonical
  have product : UnpackedFloat.mul Format.binary64 (.finite .positive (2 ^ 52) (-51) (by decide))
      (.finite sign significand exponent positive) =
        roundWithAccuracy Format.binary64 sign (significand * 2 ^ 52) (exponent - 51) .exact := by
    have signs : Sign.positive * sign = sign := by cases sign <;> rfl
    rw [UnpackedFloat.mul, signs, Nat.mul_comm, Int.add_comm]
    rfl
  rw [add_self_form, product]
  rcases Nat.lt_or_ge significand (2 ^ 52) with subnormal | full
  · -- There is room for one more bit.
    obtain rfl : exponent = -1074 := precise.resolve_left (Nat.not_le.2 subnormal)
    have aligned : Aligned (significand * 2) (-1074) :=
      ⟨by omega, by omega, Int.le_refl _, .inr rfl⟩
    have rounded := round_exact aligned sign 51
    have raised := round_raised aligned sign 0
    have up : significand * 2 * 2 ^ 51 = significand * 2 ^ 52 := by omega
    rw [up] at rounded
    rw [Nat.pow_zero, Nat.mul_one, Int.natCast_zero, Int.sub_zero] at raised
    rw [raised]
    exact rounded
  · have aligned : Aligned significand (exponent + 1) := ⟨positive, bounded, by omega, .inl full⟩
    have rounded := round_exact aligned sign 52
    have raised := round_raised aligned sign 1
    have down : exponent + 1 - ((1 : Nat) : Int) = exponent := by omega
    have down' : exponent + 1 - ((52 : Nat) : Int) = exponent - 51 := by omega
    rw [down, Nat.pow_one] at raised
    rw [down'] at rounded
    rw [raised, rounded]

theorem not_below_tolerance (aligned : Aligned significand exponent) (large : -72 < exponent)
    (sign : Sign) :
    (Float.Model.pack (Float.Model.pack (.finite sign significand exponent
      aligned.positive)).unpack.abs).unpack.lt (Scalar.tolerance : Float).toModel.unpack =
      false := by
  rw [tolerance_unpack]
  rcases lt_or_ge 971 exponent with beyond | most
  · rw [unpack_of_overflow sign aligned.positive beyond, UnpackedFloat.abs]
    rfl
  · have canonical := aligned.canonical most
    have scale : compare exponent (-72) = .gt := Int.compare_eq_gt.2 large
    rw [unpack_of_model canonical sign, UnpackedFloat.abs, unpack_of_model canonical .positive]
    simp [UnpackedFloat.lt, UnpackedFloat.compare, scale]

theorem far_from_one (canonical : Canonical significand 971) (full : 2 ^ 52 ≤ significand)
    (sign : Sign) :
    (Float.Model.pack (Float.Model.pack (UnpackedFloat.sub Format.binary64
      (.finite .positive (2 ^ 52) (-52) (by decide))
      (.finite sign significand 971 canonical.positive))).unpack.abs).unpack.lt
        (Scalar.tolerance : Float).toModel.unpack = false := by
  rw [sub_finite_finite]
  have least : min (-52 : Int) 971 = -52 := rfl
  have stays : (-52 - (-52) : Int).toNat = 0 := rfl
  rw [least, stays, Nat.pow_zero, Nat.mul_one]
  generalize raised : (971 - (-52) : Int).toNat = up
  generalize difference : Sign.positive.apply ((2 ^ 52 : Nat) : Int) -
    sign.apply ((significand * 2 ^ up : Nat) : Int) = n
  have large : 2 ^ (51 + up) ≤ n.natAbs := by
    have apart := (nat_abs_apply_sub .positive sign (2 ^ 52) (significand * 2 ^ up)).2
    have scaled : 2 ^ 52 * 2 ^ up ≤ significand * 2 ^ up := Nat.mul_le_mul_right _ full
    have room : 2 ^ 52 ≤ 2 ^ up := Nat.pow_le_pow_right (by decide) (by omega)
    rw [difference] at apart
    rw [Nat.pow_add]
    omega
  have positive : 0 < n.natAbs := Nat.lt_of_lt_of_le (Nat.two_pow_pos (51 + up)) large
  have width : 51 + up ≤ n.natAbs.log2 := (Nat.le_log2 (Nat.ne_of_gt positive)).2 large
  have target : 970 ≤ Format.binary64.targetExponent (totalExponent n.natAbs (-52)) := by
    show 970 ≤ max ((n.natAbs.log2 : Int) + 1 + -52 - 53) (-1074)
    omega
  obtain ⟨_, scale, aligned, rounded, above⟩ := round_scale (signOf (n < 0)) positive
    (Int.lt_of_lt_of_le (by decide) target)
  rw [normalize_nonzero (Int.natAbs_pos.1 positive), rounded]
  exact not_below_tolerance aligned (by omega) _

/-- A number on a scale below that of the tolerance leads no difference out of range. -/
theorem difference_finite (canonical : Canonical significand exponent)
    {significand' : Nat} {exponent' : Int} (canonical' : Canonical significand' exponent')
    (small : exponent ≤ -72) (sign sign' : Sign) :
    (Float.Model.pack (UnpackedFloat.sub Format.binary64
      (.finite sign significand exponent canonical.positive)
      (.finite sign' significand' exponent' canonical'.positive))).unpack.isFinite = true := by
  rw [sub_finite_finite]
  have least := canonical.least
  have least' := canonical'.least
  generalize low : min exponent exponent' = lowest
  obtain ⟨top, reach⟩ : ∃ top : Nat, lowest + (top + 1043 : Nat) = 971 :=
    ⟨(-72 - lowest).toNat, by omega⟩
  have most := canonical'.most
  have first : significand * 2 ^ (exponent - lowest).toNat ≤ 2 ^ 53 * 2 ^ top :=
    Nat.mul_le_mul (Nat.le_of_lt canonical.bounded) (Nat.pow_le_pow_right (by decide) (by omega))
  have second : significand' * 2 ^ (exponent' - lowest).toNat ≤
      (2 ^ 53 - 1) * 2 ^ (top + 1043) :=
    Nat.mul_le_mul (Nat.le_sub_one_of_lt canonical'.bounded)
      (Nat.pow_le_pow_right (by decide) (by omega))
  have apart := (nat_abs_apply_sub sign sign' (significand * 2 ^ (exponent - lowest).toNat)
    (significand' * 2 ^ (exponent' - lowest).toNat)).1
  have room := Nat.two_pow_pos top
  refine normalize_finite reach ?_
  rw [Nat.pow_add] at second ⊢
  omega

end

/-- The doubles are within range. -/
theorem within_range : WithinRange (Scalar.tolerance : Float) where
  twice {a b} finite same none := by
    rw [add_eq_none] at none
    rw [mul_eq_none, near_unpack, near_unpack, zero_unpack, one_unpack, two_unpack]
    rcases unpack_of_finite finite with
      ⟨sign, zero⟩ | ⟨sign, significand, exponent, canonical, some⟩
    · obtain ⟨sign', zero'⟩ := zero_of_same zero same
      rw [zero, zero'] at none
      cases sign <;> cases sign' <;> cases none
    · rw [some, unpack_of_same some same] at none
      have product := none
      rw [← twice_form canonical] at product
      obtain ⟨rfl, full⟩ := top_of_twice canonical none
      rw [some]
      exact ⟨product,
        not_below_tolerance canonical.aligned (by decide) (-sign),
        far_from_one canonical full sign⟩
  difference {a b} finite finite' small none := by
    rw [sub_eq_none] at none
    rw [near_unpack, zero_unpack] at small
    rcases unpack_of_finite finite with
      ⟨sign, zero⟩ | ⟨sign, significand, exponent, canonical, some⟩
    · rw [zero] at none
      rcases unpack_of_finite finite' with ⟨sign', zero'⟩ | ⟨sign', _, _, canonical', some'⟩
      · rw [zero'] at none
        cases sign <;> cases sign' <;> cases none
      · rw [some', UnpackedFloat.sub, unpack_of_model canonical'] at none
        cases none
    · rw [some] at none small
      have low : exponent ≤ -72 := by
        by_contra large
        cases (not_below_tolerance canonical.aligned (by omega) (-sign)).symm.trans small
      rcases unpack_of_finite finite' with ⟨sign', zero'⟩ | ⟨sign', _, _, canonical', some'⟩
      · have stays : UnpackedFloat.sub Format.binary64
            (.finite sign significand exponent canonical.positive) (.zero sign') =
            .finite sign significand exponent canonical.positive := rfl
        rw [zero', stays, unpack_of_model canonical] at none
        cases none
      · rw [some', difference_finite canonical canonical' low] at none
        cases none
  two := ⟨rfl, rfl⟩

end Fluxion.Decimal
