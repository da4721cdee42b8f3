import Fluxion.Proofs.Decimal.Whole

/-!
Equality of doubles. Main statements: doubles of one form are the same double, and two doubles
are equal when they are numbers of one form, or zeros of whatever sign.
-/

namespace Fluxion.Decimal

open Float.Model UnpackedFloat

section

variable {bits bits' : BitVec Format.binary64.numBits} {u : UnpackedFloat}

def ReadFrom (bits : BitVec Format.binary64.numBits) : UnpackedFloat → Prop
  | .notANumber => bits = packedNaN Format.binary64
  | .infinity sign => Sign.ofBitVec (unpackSign bits) = sign ∧
      (unpackExponent bits).toNat = 2047 ∧ (unpackMantissa bits).toNat = 0
  | .zero sign => Sign.ofBitVec (unpackSign bits) = sign ∧
      (unpackExponent bits).toNat = 0 ∧ (unpackMantissa bits).toNat = 0
  | .finite sign significand exponent _ => Sign.ofBitVec (unpackSign bits) = sign ∧
      ((unpackExponent bits).toNat = 0 ∧ (unpackMantissa bits).toNat = significand ∨
        ((unpackExponent bits).toNat : Int) = exponent + 1075 ∧
          (unpackMantissa bits).toNat + 2 ^ 52 = significand)

theorem read_from_bits (valid : Format.binary64.Valid bits) :
    ReadFrom bits (UnpackedFloat.unpack Format.binary64 bits) := by
  rw [UnpackedFloat.unpack]
  simp only
  split
  · rename_i most
    split
    · rename_i none
      exact ⟨rfl, congrArg BitVec.toNat most, congrArg BitVec.toNat none⟩
    · rename_i payload
      exact valid.eq_packedNaN most payload
  · split
    · rename_i least
      split
      · rename_i none
        exact ⟨rfl, congrArg BitVec.toNat least, congrArg BitVec.toNat none⟩
      · exact ⟨rfl, .inl ⟨congrArg BitVec.toNat least, rfl⟩⟩
    · refine ⟨rfl, .inr ⟨?_, (append_hidden _).symm⟩⟩
      show _ = ((unpackExponent bits).toNat : Int) - (1023 + 52 : Nat) + 1075
      omega

theorem bits_eq_of_parts
    (sign : Sign.ofBitVec (unpackSign bits) = Sign.ofBitVec (unpackSign bits'))
    (exponent : (unpackExponent bits).toNat = (unpackExponent bits').toNat)
    (mantissa : (unpackMantissa bits).toNat = (unpackMantissa bits').toNat) : bits = bits' := by
  rw [sign_of_bits, sign_of_bits] at sign
  have sign := decide_eq_decide.1 (sign_of_injective sign)
  rw [unpack_mantissa_to_nat, unpack_mantissa_to_nat] at mantissa
  rw [unpack_exponent_to_nat, unpack_exponent_to_nat] at exponent
  have small : bits.toNat < 2 ^ 64 := bits.isLt
  have small' : bits'.toNat < 2 ^ 64 := bits'.isLt
  rw [← BitVec.toNat_inj]
  omega

theorem bits_eq_of_form (reads : ReadFrom bits u) (reads' : ReadFrom bits' u) : bits = bits' := by
  cases u with
  | notANumber => exact Eq.trans reads reads'.symm
  | infinity | zero =>
      exact bits_eq_of_parts (reads.1.trans reads'.1.symm) (reads.2.1.trans reads'.2.1.symm)
        (reads.2.2.trans reads'.2.2.symm)
  | finite =>
      have mantissa : (unpackMantissa bits).toNat < 2 ^ 52 := (unpackMantissa bits).isLt
      have mantissa' : (unpackMantissa bits').toNat < 2 ^ 52 := (unpackMantissa bits').isLt
      obtain ⟨sign, parts⟩ := reads
      obtain ⟨sign', parts'⟩ := reads'
      exact bits_eq_of_parts (sign.trans sign'.symm) (by omega) (by omega)

end

theorem eq_of_form {x y : Float} (form : x.toModel.unpack = y.toModel.unpack) : x = y := by
  have reads (z : Float) : ReadFrom z.toModel.toBits.toBitVec z.toModel.unpack :=
    read_from_bits z.toModel.valid
  have same : x.toModel.toBits.toBitVec = y.toModel.toBits.toBitVec :=
    bits_eq_of_form (reads x) (form ▸ reads y)
  obtain ⟨⟨bits, valid⟩⟩ := x
  obtain ⟨⟨bits', valid'⟩⟩ := y
  obtain rfl : bits = bits' := UInt64.toBitVec_inj.1 same
  rfl

def AlikeForm (u v : UnpackedFloat) : Prop :=
  u = v ∨ (∃ sign, u = .zero sign) ∧ ∃ sign, v = .zero sign

section

variable {u v : UnpackedFloat}

theorem AlikeForm.zero (sign sign' : Sign) : AlikeForm (.zero sign) (.zero sign') :=
  .inr ⟨⟨_, rfl⟩, ⟨_, rfl⟩⟩

theorem AlikeForm.symm (alike : AlikeForm u v) : AlikeForm v u := by
  rcases alike with rfl | ⟨zero, zero'⟩
  · exact .inl rfl
  · exact .inr ⟨zero', zero⟩

theorem AlikeForm.trans {w : UnpackedFloat} (first : AlikeForm u v) (second : AlikeForm v w) :
    AlikeForm u w := by
  rcases first with rfl | ⟨zero, zero'⟩
  · exact second
  · rcases second with rfl | ⟨-, zero''⟩
    · exact .inr ⟨zero, zero'⟩
    · exact .inr ⟨zero, zero''⟩

theorem beq_self_iff : u.beq u = true ↔ u ≠ .notANumber := by
  cases u with
  | notANumber => simp [UnpackedFloat.beq, UnpackedFloat.compare]
  | zero sign => exact iff_of_true rfl (by simp)
  | infinity sign => exact iff_of_true (by cases sign <;> rfl) (by simp)
  | finite sign => cases sign <;> simp [UnpackedFloat.beq, UnpackedFloat.compare]

theorem alike_of_beq (equal : u.beq v = true) : AlikeForm u v := by
  cases u with
  | notANumber => simp [UnpackedFloat.beq, UnpackedFloat.compare] at equal
  | zero sign =>
      cases v with
      | zero sign' => exact .zero _ _
      | notANumber => simp [UnpackedFloat.beq, UnpackedFloat.compare] at equal
      | infinity sign' | finite sign' => cases sign' <;> cases equal
  | infinity sign =>
      cases v with
      | infinity sign' => cases sign <;> cases sign' <;> first | exact .inl rfl | cases equal
      | notANumber | zero | finite => cases sign <;> cases equal
  | finite sign significand exponent positive =>
      left
      cases v with
      | finite sign' significand' exponent' positive' =>
          cases sign <;> cases sign' <;>
            simp [UnpackedFloat.beq, UnpackedFloat.compare, Ordering.then_eq_eq] at equal ⊢
          all_goals exact ⟨equal.2, equal.1⟩
      | notANumber => simp [UnpackedFloat.beq, UnpackedFloat.compare] at equal
      | zero => cases sign <;> cases equal
      | infinity sign' => cases sign' <;> cases sign <;> cases equal

end

section

variable {x y : Float}

theorem same_iff_form : Scalar.same x y = true ↔
    AlikeForm x.toModel.unpack y.toModel.unpack ∧ x.toModel.unpack ≠ .notANumber := by
  rw [same_unpack]
  constructor
  · intro equal
    have alike := alike_of_beq equal
    refine ⟨alike, ?_⟩
    rcases alike with same | ⟨⟨sign, zero⟩, -⟩
    · rw [← same] at equal
      exact beq_self_iff.1 equal
    · rw [zero]
      nofun
  · rintro ⟨same | ⟨⟨sign, zero⟩, sign', zero'⟩, number⟩
    · rw [← same]
      exact beq_self_iff.2 number
    · rw [zero, zero']
      rfl

/-- A double equals itself exactly if it is a number. -/
theorem same_self_iff : Scalar.same x x = true ↔ x.isNaN = false := by
  rw [same_unpack, beq_self_iff]
  show _ ↔ x.toModel.unpack.isNaN = false
  cases x.toModel.unpack <;> simp [UnpackedFloat.isNaN]

theorem same_symm (same : Scalar.same x y = true) : Scalar.same y x = true := by
  obtain ⟨alike, number⟩ := same_iff_form.1 same
  refine same_iff_form.2 ⟨alike.symm, ?_⟩
  rcases alike with same | ⟨-, sign, zero⟩
  · rwa [← same]
  · rw [zero]
    nofun

theorem same_trans {z : Float} (first : Scalar.same x y = true) (second : Scalar.same y z = true) :
    Scalar.same x z = true := by
  obtain ⟨alike, number⟩ := same_iff_form.1 first
  exact same_iff_form.2 ⟨alike.trans (same_iff_form.1 second).1, number⟩

/-- A double that equals a number of canonical form has that form. -/
theorem unpack_of_same {sign : Sign} {significand : Nat} {exponent : Int}
    {positive : 0 < significand}
    (unpacked : x.toModel.unpack = .finite sign significand exponent positive)
    (same : Scalar.same x y = true) :
    y.toModel.unpack = .finite sign significand exponent positive := by
  rcases (same_iff_form.1 same).1 with form | ⟨⟨_, zero⟩, -⟩
  · rw [← form, unpacked]
  · rw [unpacked] at zero
    cases zero

theorem zero_of_same {sign : Sign} (zero : x.toModel.unpack = .zero sign)
    (same : Scalar.same x y = true) : ∃ sign', y.toModel.unpack = .zero sign' := by
  rcases (same_iff_form.1 same).1 with form | ⟨-, zero'⟩
  · exact ⟨sign, by rw [← form, zero]⟩
  · exact zero'

end

end Fluxion.Decimal
