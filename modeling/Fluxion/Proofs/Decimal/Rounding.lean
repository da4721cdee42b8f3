import Fluxion.Proofs.Decimal.Whole

/-!
Rounding to doubles. A number that is rounded keeps the scale of its leading bits, or
moves to the next one where all of them carry; so it stays finite below the middle
between the largest double and the power of two that follows. Main statements: that
bound, and that a number as large as its scale says is not rounded to a small one.
-/

namespace Fluxion.Decimal

open Float.Model UnpackedFloat

def nearest (significand shift : Nat) : Nat :=
  (ExtendedMantissa.ofMantissaAndAccuracy significand .exact >>> shift).roundedMantissa

theorem rounded_mantissa_bounds (extended : ExtendedMantissa) :
    extended.mantissa ≤ extended.roundedMantissa ∧
      extended.roundedMantissa ≤ extended.mantissa + 1 := by
  obtain ⟨mantissa, roundBit, stickyBit⟩ := extended
  have parity := Nat.mod_lt mantissa (show 0 < 2 by decide)
  cases roundBit <;> cases stickyBit <;>
    simp only [ExtendedMantissa.roundedMantissa, ExtendedMantissa.accuracy,
      Accuracy.roundToNearestEven] <;> omega

theorem rounded_mantissa_down {extended : ExtendedMantissa} (down : extended.roundBit = false) :
    extended.roundedMantissa = extended.mantissa := by
  obtain ⟨mantissa, roundBit, stickyBit⟩ := extended
  cases down
  cases stickyBit <;> rfl

section

variable (significand shift : Nat)

theorem shift_mantissa :
    (ExtendedMantissa.ofMantissaAndAccuracy significand .exact >>> shift).mantissa =
      significand / 2 ^ shift := by
  show (Nat.repeat ExtendedMantissa.shiftRightOne shift _).mantissa = _
  induction shift with
  | zero => simp [ExtendedMantissa.ofMantissaAndAccuracy, Nat.repeat]
  | succ shift induction =>
      rw [Nat.repeat, ExtendedMantissa.shiftRightOne, induction, Nat.div_div_eq_div_mul,
        Nat.pow_succ]

theorem nearest_bounds :
    significand / 2 ^ shift ≤ nearest significand shift ∧
      nearest significand shift ≤ significand / 2 ^ shift + 1 := by
  rw [← shift_mantissa]
  exact rounded_mantissa_bounds _

variable {significand shift}

theorem nearest_down (below : 2 * (significand % 2 ^ shift) < 2 ^ shift) :
    nearest significand shift = significand / 2 ^ shift := by
  rw [← shift_mantissa]
  apply rounded_mantissa_down
  cases shift with
  | zero => rfl
  | succ shift =>
      have bit : (ExtendedMantissa.ofMantissaAndAccuracy significand .exact >>>
          (shift + 1)).roundBit = (significand / 2 ^ shift % 2 != 0) := by
        rw [← shift_mantissa]
        rfl
      have half : significand % 2 ^ (shift + 1) < 2 ^ shift := by
        rw [Nat.pow_succ] at below ⊢
        omega
      have last : significand / 2 ^ shift % 2 = 0 := by
        rw [← Nat.mod_mul_right_div_self, ← Nat.pow_succ]
        exact Nat.div_eq_of_lt half
      rw [bit, last]
      rfl

end

section

variable {significand shift : Nat} {exponent : Int}

/-- Rounding aims at a scale on which 53 bits are left, but at none below the least. -/
theorem quotient_of_target (positive : 0 < significand)
    (aims : Format.binary64.targetExponent (totalExponent significand exponent) =
      exponent + shift) :
    significand / 2 ^ shift < 2 ^ 53 ∧ -1074 ≤ exponent + shift ∧
      (2 ^ 52 ≤ significand / 2 ^ shift ∨ exponent + shift = -1074) := by
  have target : max ((significand.log2 : Int) + 1 + exponent - 53) (-1074) = exponent + shift :=
    aims
  refine ⟨?_, by omega, ?_⟩
  · have width : significand.log2 < shift + 53 := by omega
    apply Nat.div_lt_of_lt_mul
    rw [← Nat.pow_add]
    exact (Nat.log2_lt (Nat.ne_of_gt positive)).1 width
  · rcases Nat.lt_or_ge significand.log2 (52 + shift) with subnormal | normal
    · right
      omega
    · left
      rw [Nat.le_div_iff_mul_le (Nat.two_pow_pos shift), ← Nat.pow_add]
      exact (Nat.le_log2 (Nat.ne_of_gt positive)).1 normal

theorem first_shift (aims : Format.binary64.targetExponent (totalExponent significand exponent) =
      exponent + shift) :
    shiftToTargetExponent Format.binary64 significand exponent .exact =
      (ExtendedMantissa.ofMantissaAndAccuracy significand .exact >>> shift, exponent + shift) := by
  have amount : (exponent + (shift : Int) - exponent).toNat = shift := by omega
  rw [shiftToTargetExponent, aims, shiftToExponent, amount]

/-- The second shift of rounding, which makes up for a carry, decides what comes out. -/
theorem round_of_second_shift (sign : Sign) {mantissa : Nat} {scale : Int}
    (positive : 0 < mantissa)
    (aims : Format.binary64.targetExponent (totalExponent significand exponent) =
      exponent + shift)
    (second : shiftToTargetExponent Format.binary64 (nearest significand shift)
      (exponent + shift) .exact = (⟨mantissa, false, false⟩, scale)) :
    roundWithAccuracy Format.binary64 sign significand exponent .exact =
      .finite sign mantissa scale positive := by
  rw [nearest] at second
  simp only [roundWithAccuracy, first_shift aims, second]
  exact dif_neg (Nat.ne_of_gt positive)

theorem round_to_zero (sign : Sign) (nothing : nearest significand shift = 0)
    (aims : Format.binary64.targetExponent (totalExponent significand exponent) =
      exponent + shift) :
    roundWithAccuracy Format.binary64 sign significand exponent .exact = .zero sign := by
  have gone :
      (shiftToTargetExponent Format.binary64 0 (exponent + shift) .exact).1.mantissa = 0 := by
    rw [shiftToTargetExponent, shiftToExponent, shift_mantissa, Nat.zero_div]
  rw [nearest] at nothing
  simp only [roundWithAccuracy, first_shift aims, nothing]
  exact dif_pos gone

/-- A number is rounded to nothing, to a number on the scale that is aimed at, or to the
least one on the next scale. -/
theorem round_cases (sign : Sign) (positive : 0 < significand)
    (aims : Format.binary64.targetExponent (totalExponent significand exponent) =
      exponent + shift) :
    (significand < 2 ^ shift ∧
      roundWithAccuracy Format.binary64 sign significand exponent .exact = .zero sign) ∨
    (∃ aligned : Aligned (nearest significand shift) (exponent + shift),
      roundWithAccuracy Format.binary64 sign significand exponent .exact =
        .finite sign (nearest significand shift) (exponent + shift) aligned.positive) ∨
    ∃ aligned : Aligned (2 ^ 52) (exponent + shift + 1), nearest significand shift = 2 ^ 53 ∧
      roundWithAccuracy Format.binary64 sign significand exponent .exact =
        .finite sign (2 ^ 52) (exponent + shift + 1) aligned.positive := by
  obtain ⟨bounded, least, precise⟩ := quotient_of_target positive aims
  obtain ⟨low, high⟩ := nearest_bounds significand shift
  rcases Nat.eq_zero_or_pos (nearest significand shift) with nothing | some
  · left
    have small : significand / 2 ^ shift = 0 := Nat.eq_zero_of_le_zero (nothing ▸ low)
    exact ⟨(Nat.div_eq_zero_iff.1 small).resolve_left (Nat.ne_of_gt (Nat.two_pow_pos shift)),
      round_to_zero sign nothing aims⟩
  rcases Nat.lt_or_ge (nearest significand shift) (2 ^ 53) with fits | carries
  · right; left
    have aligned : Aligned (nearest significand shift) (exponent + shift) :=
      ⟨some, fits, least, by omega⟩
    refine ⟨aligned, round_of_second_shift sign some aims ?_⟩
    simpa using shift_to_target aligned 0
  · right; right
    have full : nearest significand shift = 2 ^ 53 := by omega
    have aligned : Aligned (2 ^ 52) (exponent + shift + 1) :=
      ⟨by decide, by decide, by omega, .inl (Nat.le_refl _)⟩
    refine ⟨aligned, full, round_of_second_shift sign _ aims ?_⟩
    have carried := shift_to_target aligned 1
    rw [full]
    rwa [Int.natCast_one, Int.add_sub_cancel] at carried

/-- A number below the middle between the largest double and the power of two that
follows is not rounded to that power. -/
theorem round_bounded (sign : Sign) {top : Nat} (positive : 0 < significand)
    (aims : Format.binary64.targetExponent (totalExponent significand exponent) =
      exponent + shift)
    (reach : exponent + top = 971) (below : 2 * significand < (2 ^ 54 - 1) * 2 ^ top) :
    roundWithAccuracy Format.binary64 sign significand exponent .exact = .zero sign ∨
      ∃ mantissa scale, ∃ canonical : Canonical mantissa scale,
        roundWithAccuracy Format.binary64 sign significand exponent .exact =
          .finite sign mantissa scale canonical.positive := by
  have target : max ((significand.log2 : Int) + 1 + exponent - 53) (-1074) = exponent + shift :=
    aims
  have width : significand.log2 < 53 + top := by
    rw [Nat.log2_lt (Nat.ne_of_gt positive), Nat.pow_add]
    omega
  rcases round_cases sign positive aims with ⟨-, zero⟩ | ⟨aligned, same⟩ | ⟨aligned, full, same⟩
  · exact .inl zero
  · exact .inr ⟨_, _, aligned.canonical (by omega), same⟩
  · refine .inr ⟨_, _, aligned.canonical ?_, same⟩
    have quotient := (quotient_of_target positive aims).1
    have high := (nearest_bounds significand shift).2
    -- on the last scale a carry needs at least half of the last place
    by_contra beyond
    obtain rfl : shift = top := by omega
    have last : significand / 2 ^ shift = 2 ^ 53 - 1 := by omega
    have parts := Nat.div_add_mod significand (2 ^ shift)
    rw [last] at parts
    have down : nearest significand shift = significand / 2 ^ shift := nearest_down (by omega)
    omega

theorem round_lowers (exponent : Int) (sign : Sign) (positive : 0 < significand) :
    ∃ down shift : Nat,
      Format.binary64.targetExponent (totalExponent significand exponent) =
        exponent - down + shift ∧
      Format.binary64.targetExponent (totalExponent (significand * 2 ^ down) (exponent - down)) =
        exponent - down + shift ∧
      UnpackedFloat.round Format.binary64 sign significand exponent =
        roundWithAccuracy Format.binary64 sign (significand * 2 ^ down) (exponent - down)
          .exact := by
  generalize target : Format.binary64.targetExponent (totalExponent significand exponent) = aim
  have total : totalExponent (significand * 2 ^ (exponent - aim).toNat)
      (exponent - (exponent - aim).toNat) = totalExponent significand exponent := by
    rw [totalExponent, totalExponent, log_shifted positive]
    omega
  refine ⟨(exponent - aim).toNat, (aim - exponent).toNat, by omega, ?_, ?_⟩
  · rw [total, target]
    omega
  · simp only [UnpackedFloat.round, target, decreaseExponent, Nat.shiftLeft_eq]

theorem round_finite (sign : Sign) {top : Nat} (positive : 0 < significand)
    (reach : exponent + top = 971) (below : 2 * significand < (2 ^ 54 - 1) * 2 ^ top) :
    UnpackedFloat.round Format.binary64 sign significand exponent = .zero sign ∨
      ∃ mantissa scale, ∃ canonical : Canonical mantissa scale,
        UnpackedFloat.round Format.binary64 sign significand exponent =
          .finite sign mantissa scale canonical.positive := by
  obtain ⟨down, shift, -, aims, same⟩ := round_lowers exponent sign positive
  have lowered : 2 * (significand * 2 ^ down) < (2 ^ 54 - 1) * 2 ^ (top + down) := by
    rw [Nat.pow_add, ← Nat.mul_assoc, ← Nat.mul_assoc]
    exact Nat.mul_lt_mul_of_pos_right below (Nat.two_pow_pos down)
  rw [same]
  exact round_bounded sign (Nat.mul_pos positive (Nat.two_pow_pos down)) aims (by omega) lowered

theorem round_scale (sign : Sign) (positive : 0 < significand)
    (normal : -1074 < Format.binary64.targetExponent (totalExponent significand exponent)) :
    ∃ mantissa scale, ∃ aligned : Aligned mantissa scale,
      UnpackedFloat.round Format.binary64 sign significand exponent =
        .finite sign mantissa scale aligned.positive ∧
      Format.binary64.targetExponent (totalExponent significand exponent) ≤ scale := by
  obtain ⟨down, shift, target, aims, same⟩ := round_lowers exponent sign positive
  rw [same, target]
  have positive := Nat.mul_pos positive (Nat.two_pow_pos down)
  rcases round_cases sign positive aims with ⟨small, -⟩ | ⟨aligned, same⟩ | ⟨aligned, -, same⟩
  · obtain ⟨-, -, full | least⟩ := quotient_of_target positive aims
    · rw [Nat.div_eq_of_lt small] at full
      omega
    · omega
  · exact ⟨_, _, aligned, same, Int.le_refl _⟩
  · exact ⟨_, _, aligned, same, by omega⟩

end

theorem pack_of_overflow {significand : Nat} {exponent : Int} (sign : Sign)
    (positive : 0 < significand) (beyond : 971 < exponent) :
    Float.Model.pack (.finite sign significand exponent positive) =
      Float.Model.pack (.infinity sign) := by
  have bias : Format.binary64.exponentBias = 1023 := rfl
  have large : 2 ^ Format.binary64.exponentBits ≤
      (exponent + (Format.binary64.exponentBias : Nat) +
        (Format.binary64.mantissaBitsWithoutImplicit : Nat)).toNat + 1 := by
    rw [bias]
    show 2048 ≤ (exponent + (1023 : Nat) + (52 : Nat)).toNat + 1
    omega
  have packed : UnpackedFloat.pack Format.binary64 (.finite sign significand exponent positive) =
      UnpackedFloat.pack Format.binary64 (.infinity sign) := if_pos large
  simp only [Float.Model.pack, packed]

theorem unpack_of_overflow {significand : Nat} {exponent : Int} (sign : Sign)
    (positive : 0 < significand) (beyond : 971 < exponent) :
    (Float.Model.pack (.finite sign significand exponent positive)).unpack = .infinity sign := by
  rw [pack_of_overflow sign positive beyond]
  cases sign <;> rfl

end Fluxion.Decimal
