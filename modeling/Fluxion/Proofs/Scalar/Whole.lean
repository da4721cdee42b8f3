import Fluxion.Scalar.Basic

/-!
What it takes to write whole numbers as their digits and to read them again.
-/

namespace Fluxion

/-- The sign of a whole number is that of the integer which it is, and the digits of that
integer are read as the number, up to its sign. -/
structure WholeNumbers (α : Type) [Scalar α] : Prop where
  negative {value : α} {n : Int} : Scalar.toInt? value = some n →
    Scalar.isNegative value = decide (n < 0)
  reads {value : α} {n : Int} : Scalar.toInt? value = some n →
    ∃ read : α, Scalar.read? (String.ofList (Nat.toDigits 10 n.natAbs)) = some read ∧
      Scalar.same read (if n < 0 then Scalar.neg value else value) = true

theorem WholeNumbers.not_negative {α : Type} [Scalar α] (numbers : WholeNumbers α) {value : α}
    {n : Nat} (natural : Scalar.toInt? value = some (n : Int)) :
    Scalar.isNegative value = false := by
  rw [numbers.negative natural]
  exact decide_eq_false (by omega)

end Fluxion
