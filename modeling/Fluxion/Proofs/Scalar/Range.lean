import Fluxion.Scalar.Basic

/-!
What coming to rest in time asks of the range of the numbers.
-/

namespace Fluxion

/-- Where a sum of equal numbers is out of range, so is their double, and they are far
from zero and one; a number close to zero leads no difference out of range. -/
structure WithinRange {α : Type} [Scalar α] (epsilon : α) : Prop where
  twice {a b : α} : Scalar.isFinite a = true → Scalar.same a b = true → Scalar.add a b = none →
    Scalar.mul (Scalar.ofNat 2) a = none ∧ Scalar.near epsilon a (Scalar.ofNat 0) = false ∧
      Scalar.near epsilon a (Scalar.ofNat 1) = false
  difference {a b : α} : Scalar.isFinite a = true → Scalar.isFinite b = true →
    Scalar.near epsilon a (Scalar.ofNat 0) = true → Scalar.sub a b ≠ none
  two : Scalar.near epsilon (Scalar.ofNat 2) (Scalar.ofNat 0) = false ∧
    Scalar.near epsilon (Scalar.ofNat 2) (Scalar.ofNat 1) = false

end Fluxion
