import Fluxion.Scalar.Double
import Mathlib

/-!
The finite doubles, each in the one form that it has: its significand takes all of its
53 bits, or its exponent is the least one. Main statements: a double is read from its
bits in that form; writing the form into bits and reading it again gives it back; and
a number of that form is not changed when it is rounded to a double.
-/

namespace Fluxion.Decimal

open Float.Model UnpackedFloat

/-- The significand and the exponent of a finite double other than zero. -/
structure Canonical (significand : Nat) (exponent : Int) : Prop where
  positive : 0 < significand
  bounded : significand < 2 ^ 53
  least : -1074 ≤ exponent
  most : exponent ≤ 971
  precise : 2 ^ 52 ≤ significand ∨ exponent = -1074

/-- The same for a number that may be too large for a double. -/
structure Aligned (significand : Nat) (exponent : Int) : Prop where
  positive : 0 < significand
  bounded : significand < 2 ^ 53
  least : -1074 ≤ exponent
  precise : 2 ^ 52 ≤ significand ∨ exponent = -1074

theorem Canonical.aligned {significand : Nat} {exponent : Int}
    (canonical : Canonical significand exponent) : Aligned significand exponent :=
  ⟨canonical.positive, canonical.bounded, canonical.least, canonical.precise⟩

theorem Aligned.canonical {significand : Nat} {exponent : Int}
    (aligned : Aligned significand exponent) (most : exponent ≤ 971) :
    Canonical significand exponent :=
  ⟨aligned.positive, aligned.bounded, aligned.least, most, aligned.precise⟩

def signOf (negative : Bool) : Sign := if negative then .negative else .positive

theorem sign_of_injective {negative negative' : Bool} (same : signOf negative = signOf negative') :
    negative = negative' := by
  cases negative <;> cases negative' <;> first | rfl | cases same

def Represents (x : Float) (d : Dyadic) : Prop :=
  (d.significand = 0 ∧ x.toModel.unpack = .zero (signOf d.negative)) ∨
    ∃ canonical : Canonical d.significand d.exponent,
      x.toModel.unpack =
        .finite (signOf d.negative) d.significand d.exponent canonical.positive

section

variable (bits : BitVec Format.binary64.numBits)

theorem unpack_mantissa_to_nat : (unpackMantissa bits).toNat = bits.toNat % 2 ^ 52 := by
  simp [unpackMantissa]

theorem unpack_exponent_to_nat :
    (unpackExponent bits).toNat = bits.toNat / 2 ^ 52 % 2 ^ 11 := by
  simp [unpackExponent, Nat.shiftRight_eq_div_pow]

theorem sign_of_bits :
    Sign.ofBitVec (unpackSign bits) = signOf (bits.toNat / 2 ^ 63 = 1) := by
  have small : bits.toNat / 2 ^ 63 < 2 := Nat.div_lt_of_lt_mul bits.isLt
  have whole : (unpackSign bits).toNat = bits.toNat / 2 ^ 63 := by
    simp only [unpackSign, BitVec.toNat_cast, BitVec.extractLsb_toNat, Nat.shiftRight_eq_div_pow]
    exact Nat.mod_eq_of_lt small
  by_cases zero : bits.toNat / 2 ^ 63 = 0
  · have positive : unpackSign bits = 0#1 := by
      rw [← BitVec.toNat_inj, whole]
      exact zero
    rw [zero, Sign.ofBitVec, if_pos positive]
    rfl
  · have one : bits.toNat / 2 ^ 63 = 1 := by omega
    have negative : unpackSign bits ≠ 0#1 := by
      rw [Ne, ← BitVec.toNat_inj, whole]
      exact zero
    rw [one, Sign.ofBitVec, if_neg negative]
    rfl

theorem append_hidden (mantissa : BitVec 52) :
    (1#1 ++ mantissa).toNat = mantissa.toNat + 2 ^ 52 := by
  rw [BitVec.toNat_append, ← Nat.shiftLeft_add_eq_or_of_lt mantissa.isLt, Nat.add_comm]
  rfl

end

theorem represents_of_float {x : Float} {d : Dyadic} (value : Dyadic.ofFloat? x = some d) :
    Represents x d := by
  let bits : BitVec Format.binary64.numBits := x.toModel.toBits.toBitVec
  have mantissa := unpack_mantissa_to_nat bits
  have exponent := unpack_exponent_to_nat bits
  have sign := sign_of_bits bits
  have shown : x.toModel.unpack = UnpackedFloat.unpack Format.binary64 bits := rfl
  have numeral : x.toBits.toNat = bits.toNat := rfl
  simp only [Dyadic.ofFloat?, Dyadic.hiddenBit, numeral] at value
  have ends : (-1#11 : BitVec 11).toNat = 2047 := rfl
  split at value
  · cases value
  · rename_i finite
    have notEnd : unpackExponent bits ≠ -1#11 := by
      rw [Ne, ← BitVec.toNat_inj, exponent, ends]
      exact finite
    split at value
    · rename_i subnormal
      have least : unpackExponent bits = 0#11 := by
        rw [← BitVec.toNat_inj, exponent]
        exact subnormal
      cases value
      by_cases zero : bits.toNat % 2 ^ 52 = 0
      · have none : unpackMantissa bits = 0#52 := by
          rw [← BitVec.toNat_inj, mantissa]
          exact zero
        refine .inl ⟨zero, ?_⟩
        rw [shown, UnpackedFloat.unpack]
        simp only [least, none, sign, if_true, dite_true]
        rfl
      · have some : unpackMantissa bits ≠ 0#52 := by
          rw [Ne, ← BitVec.toNat_inj, mantissa]
          exact zero
        have small : bits.toNat % 2 ^ 52 < 2 ^ 53 := by omega
        refine .inr ⟨⟨Nat.pos_of_ne_zero zero, small, Int.le_refl _,
          show (-1074 : Int) ≤ 971 by decide, .inr rfl⟩, ?_⟩
        rw [shown, UnpackedFloat.unpack]
        simp only [least, some, sign, mantissa, if_true, dite_false]
        rfl
    · rename_i normal
      have inner : unpackExponent bits ≠ 0#11 := by
        rw [Ne, ← BitVec.toNat_inj, exponent]
        exact normal
      cases value
      have scale : bits.toNat / 2 ^ 52 % 2 ^ 11 < 2047 := by
        have small := Nat.mod_lt (bits.toNat / 2 ^ 52) (show 0 < 2 ^ 11 by decide)
        have notEnd : bits.toNat / 2 ^ 52 % 2 ^ 11 ≠ 2047 := finite
        omega
      have positive : 0 < bits.toNat / 2 ^ 52 % 2 ^ 11 := Nat.pos_of_ne_zero normal
      have small := Nat.mod_lt bits.toNat (show 0 < 2 ^ 52 by decide)
      have exponentEq : ((bits.toNat / 2 ^ 52 % 2 ^ 11 : Nat) : Int) - 1 + Dyadic.leastExponent =
          (bits.toNat / 2 ^ 52 % 2 ^ 11 : Nat) - 1075 := by
        rw [Dyadic.leastExponent]
        omega
      have canonical : Canonical (bits.toNat % 2 ^ 52 + 2 ^ 52)
          ((bits.toNat / 2 ^ 52 % 2 ^ 11 : Nat) - 1075) :=
        ⟨by omega, by omega, by omega, by omega, .inl (by omega)⟩
      refine .inr ⟨exponentEq ▸ canonical, ?_⟩
      rw [shown, UnpackedFloat.unpack]
      simp only [notEnd, inner, sign, if_false, append_hidden, mantissa, exponent]
      congr 1
      exact exponentEq.symm

theorem unpack_sign_pack (sign : Sign) (exponent : BitVec 11) (mantissa : BitVec 52) :
    Sign.ofBitVec (unpackSign (packComponents Format.binary64 sign exponent mantissa)) =
      sign := by
  have packed : unpackSign (packComponents Format.binary64 sign exponent mantissa) =
      sign.toBitVec := by
    have appended :
        (sign.toBitVec ++ exponent ++ mantissa).getLsbD 63 = sign.toBitVec.getLsbD 0 := by
      rw [BitVec.getLsbD_append, BitVec.getLsbD_append]
      rfl
    apply BitVec.eq_of_getLsbD_eq
    intro i inside
    obtain rfl : i = 0 := by omega
    simp only [unpackSign, packComponents, BitVec.getLsbD_cast, BitVec.getLsbD_extractLsb]
    exact appended
  rw [packed]
  cases sign <;> rfl

/-- Numbers of canonical form survive being written into bits. -/
theorem unpack_pack {significand : Nat} {exponent : Int}
    (canonical : Canonical significand exponent) (sign : Sign) :
    UnpackedFloat.unpack Format.binary64 (UnpackedFloat.pack Format.binary64
      (.finite sign significand exponent canonical.positive)) =
      .finite sign significand exponent canonical.positive := by
  obtain ⟨positive, bounded, least, most, precise⟩ := canonical
  have biased : (exponent + (Format.binary64.exponentBias : Nat) + (52 : Nat)).toNat =
      (exponent + 1075).toNat := by
    have bias : Format.binary64.exponentBias = 1023 := rfl
    rw [bias]
    congr 1
    omega
  have small : ¬ 2 ^ 11 ≤ (exponent + 1075).toNat + 1 := by omega
  have fits : (BitVec.ofNat 11 (exponent + 1075).toNat).toNat = (exponent + 1075).toNat := by
      rw [BitVec.toNat_ofNat, Nat.mod_eq_of_lt (by omega)]
  by_cases normal : 2 ^ 52 ≤ significand
  · have width : significand.log2 = 52 :=
      (Nat.log2_eq_iff (Nat.ne_of_gt positive)).2 ⟨normal, bounded⟩
    have packed : UnpackedFloat.pack Format.binary64 (.finite sign significand exponent positive) =
        packComponents Format.binary64 sign (BitVec.ofNat 11 (exponent + 1075).toNat)
          (BitVec.ofNat 52 significand) := by
      simp only [UnpackedFloat.pack, biased]
      rw [if_neg small, if_pos]
      rw [width]
      rfl
    have hidden : (BitVec.ofNat 52 significand).toNat + 2 ^ 52 = significand := by
      rw [BitVec.toNat_ofNat]
      omega
    have notLeast : BitVec.ofNat 11 (exponent + 1075).toNat ≠ 0#11 := by
      rw [Ne, ← BitVec.toNat_inj, fits]
      show (exponent + 1075).toNat ≠ 0
      omega
    have notMost : BitVec.ofNat 11 (exponent + 1075).toNat ≠ -1#11 := by
      rw [Ne, ← BitVec.toNat_inj, fits]
      show (exponent + 1075).toNat ≠ 2047
      omega
    rw [packed, UnpackedFloat.unpack]
    simp only [unpackMantissa_packComponents, unpackExponent_packComponents, notLeast, notMost,
      if_false, unpack_sign_pack, append_hidden, hidden, fits]
    congr 1
    show ((exponent + 1075).toNat : Int) - 1075 = exponent
    omega
  · have subnormal : exponent = -1074 := precise.resolve_left normal
    subst subnormal
    have width : significand.log2 < 52 :=
      (Nat.log2_lt (Nat.ne_of_gt positive)).2 (Nat.lt_of_not_le normal)
    have packed : UnpackedFloat.pack Format.binary64 (.finite sign significand (-1074) positive) =
        packComponents Format.binary64 sign 0#11 (BitVec.ofNat 52 significand) := by
      simp only [UnpackedFloat.pack, biased]
      rw [if_neg small, if_neg]
      show ¬ significand.log2 + 1 = 53
      omega
    have whole : (BitVec.ofNat 52 significand).toNat = significand := by
      rw [BitVec.toNat_ofNat, Nat.mod_eq_of_lt (by omega)]
    have some : BitVec.ofNat 52 significand ≠ 0#52 := by
      rw [Ne, ← BitVec.toNat_inj, whole]
      exact Nat.ne_of_gt positive
    rw [packed, UnpackedFloat.unpack]
    simp only [unpackMantissa_packComponents, unpackExponent_packComponents, some, if_true,
      dite_false, unpack_sign_pack, whole]
    rfl

theorem shift_exact (significand shift : Nat) :
    ExtendedMantissa.ofMantissaAndAccuracy (significand * 2 ^ shift) .exact >>> shift =
      ⟨significand, false, false⟩ := by
  show Nat.repeat ExtendedMantissa.shiftRightOne shift _ = _
  induction shift generalizing significand with
  | zero => simp [ExtendedMantissa.ofMantissaAndAccuracy, Nat.repeat]
  | succ shift induction =>
      have double : significand * 2 ^ (shift + 1) = significand * 2 * 2 ^ shift := by
        rw [Nat.pow_succ, Nat.mul_comm (2 ^ shift), Nat.mul_assoc]
      rw [Nat.repeat, double, induction, ExtendedMantissa.shiftRightOne]
      simp

theorem log_shifted {significand : Nat} (positive : 0 < significand) (shift : Nat) :
    (significand * 2 ^ shift).log2 = significand.log2 + shift := by
  induction shift with
  | zero => rw [Nat.pow_zero, Nat.mul_one, Nat.add_zero]
  | succ shift induction =>
      have nonzero : significand * 2 ^ shift ≠ 0 :=
        Nat.ne_of_gt (Nat.mul_pos positive (Nat.two_pow_pos shift))
      rw [Nat.pow_succ, ← Nat.mul_assoc, Nat.mul_comm _ 2, Nat.log2_two_mul nonzero, induction,
        Nat.add_assoc]

variable {significand : Nat} {exponent : Int}

theorem target_exponent (aligned : Aligned significand exponent) (shift : Nat) :
    Format.binary64.targetExponent
      (totalExponent (significand * 2 ^ shift) (exponent - shift)) = exponent := by
  obtain ⟨positive, bounded, least, precise⟩ := aligned
  have total : totalExponent (significand * 2 ^ shift) (exponent - shift) =
      significand.log2 + 1 + exponent := by
    rw [totalExponent, log_shifted positive]
    omega
  rw [total]
  show max ((significand.log2 : Int) + 1 + exponent - 53) (-1074) = exponent
  have below : significand.log2 < 53 := (Nat.log2_lt (Nat.ne_of_gt positive)).2 bounded
  rcases precise with full | subnormal
  · have width : significand.log2 = 52 :=
      (Nat.log2_eq_iff (Nat.ne_of_gt positive)).2 ⟨full, bounded⟩
    omega
  · omega

theorem shift_to_target (aligned : Aligned significand exponent) (shift : Nat) :
    shiftToTargetExponent Format.binary64 (significand * 2 ^ shift) (exponent - shift) .exact =
      (⟨significand, false, false⟩, exponent) := by
  have amount : (exponent - (exponent - shift)).toNat = shift := by omega
  rw [shiftToTargetExponent, target_exponent aligned, shiftToExponent, amount, shift_exact]
  simp

/-- An aligned number, on however small a scale, is not changed by rounding. -/
theorem round_exact (aligned : Aligned significand exponent) (sign : Sign) (shift : Nat) :
    roundWithAccuracy Format.binary64 sign (significand * 2 ^ shift) (exponent - shift) .exact =
      .finite sign significand exponent aligned.positive := by
  have again : shiftToTargetExponent Format.binary64 significand exponent .exact =
      (⟨significand, false, false⟩, exponent) := by
    simpa using shift_to_target aligned 0
  have rounded : (⟨significand, false, false⟩ : ExtendedMantissa).roundedMantissa = significand :=
    rfl
  simp only [roundWithAccuracy, shift_to_target aligned shift, rounded, again]
  exact dif_neg (Nat.ne_of_gt aligned.positive)

/-- An aligned number is rounded to itself from any lower scale. -/
theorem round_raised (aligned : Aligned significand exponent) (sign : Sign) (shift : Nat) :
    UnpackedFloat.round Format.binary64 sign (significand * 2 ^ shift) (exponent - shift) =
      .finite sign significand exponent aligned.positive := by
  have target := target_exponent aligned shift
  have rounded := round_exact aligned sign shift
  have amount : (exponent - (shift : Int) - exponent).toNat = 0 := by omega
  simp only [UnpackedFloat.round, target, decreaseExponent, amount]
  simpa using rounded

end Fluxion.Decimal
