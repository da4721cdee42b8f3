import Fluxion.Proofs.Decimal.Integral
import Fluxion.Proofs.Scalar.Zero

/-!
The zeros of the doubles. Main statement: sums, products and quotients of zeros are zeros as
far as they are finite.
-/

namespace Fluxion.Decimal

open Float.Model UnpackedFloat Scalar

variable {x y z : Float}

theorem is_zero_iff : IsZero x ↔ ∃ sign, x.toModel.unpack = .zero sign := by
  constructor
  · intro zero
    exact zero_of_same zero_unpack (same_symm zero)
  · rintro ⟨sign, zero⟩
    rw [IsZero, same_unpack, zero, zero_unpack]
    rfl

theorem unpack_pack_zero (sign : Sign) :
    (Float.Model.pack (.zero sign)).unpack = .zero sign := by
  cases sign <;> rfl

/-- A result that is a zero or none at all is a zero where it is finite. -/
theorem is_zero_of_outcome {result : Float} {outcome : UnpackedFloat}
    (defined : Double.finite? result = some z) (model : result.toModel = Float.Model.pack outcome)
    (nothing : outcome = .notANumber ∨ ∃ sign, outcome = .zero sign) : IsZero z := by
  unfold Double.finite? at defined
  split at defined
  · rename_i finite
    cases defined
    rcases nothing with rfl | ⟨sign, rfl⟩
    · change z.toModel.unpack.isFinite = true at finite
      rw [model] at finite
      cases finite
    · exact is_zero_iff.2 ⟨sign, by rw [model, unpack_pack_zero]⟩
  · cases defined

/-- The doubles have two zeros, which arithmetic treats as zeros. -/
theorem zeros : Zeros (Scalar.tolerance : Float) where
  whole := is_zero_iff.2 ⟨_, zero_unpack⟩
  near_zero zero := by
    obtain ⟨sign, zero⟩ := is_zero_iff.1 zero
    rw [near_unpack, zero, zero_unpack]
    cases sign <;> rfl
  not_near_one zero := by
    obtain ⟨sign, zero⟩ := is_zero_iff.1 zero
    rw [near_unpack, zero, one_unpack]
    cases sign <;> rfl
  neg {x} zero := by
    obtain ⟨sign, zero⟩ := is_zero_iff.1 zero
    refine is_zero_iff.2 ⟨-sign, ?_⟩
    show (Float.Model.pack x.toModel.unpack.neg).unpack = _
    rw [zero]
    exact unpack_pack_zero (-sign)
  add zero zero' defined := by
    obtain ⟨sign, zero⟩ := is_zero_iff.1 zero
    obtain ⟨sign', zero'⟩ := is_zero_iff.1 zero'
    refine is_zero_of_outcome defined rfl (.inr ?_)
    rw [zero, zero']
    cases sign <;> cases sign' <;> exact ⟨_, rfl⟩
  sub zero zero' defined := by
    obtain ⟨sign, zero⟩ := is_zero_iff.1 zero
    obtain ⟨sign', zero'⟩ := is_zero_iff.1 zero'
    refine is_zero_of_outcome defined rfl (.inr ?_)
    rw [zero, zero']
    cases sign <;> cases sign' <;> exact ⟨_, rfl⟩
  zero_mul {x y} {_} zero defined := by
    obtain ⟨sign, zero⟩ := is_zero_iff.1 zero
    refine is_zero_of_outcome defined rfl ?_
    rw [zero]
    cases y.toModel.unpack with
    | notANumber | infinity => exact .inl rfl
    | zero | finite => exact .inr ⟨_, rfl⟩
  mul_zero {x y} {_} zero defined := by
    obtain ⟨sign, zero⟩ := is_zero_iff.1 zero
    refine is_zero_of_outcome defined rfl ?_
    rw [zero]
    cases x.toModel.unpack with
    | notANumber | infinity => exact .inl rfl
    | zero | finite => exact .inr ⟨_, rfl⟩
  zero_div {x y} {_} zero defined := by
    obtain ⟨sign, zero⟩ := is_zero_iff.1 zero
    refine is_zero_of_outcome defined rfl ?_
    rw [zero]
    cases y.toModel.unpack with
    | notANumber | zero => exact .inl rfl
    | infinity | finite => exact .inr ⟨_, rfl⟩

end Fluxion.Decimal
