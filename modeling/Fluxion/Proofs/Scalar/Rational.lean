import Fluxion.Scalar.Basic
import Mathlib.Data.Rat.Floor

/-!
Exact rational arithmetic. Rational numbers that are added, multiplied and compared without
rounding, whatever else is asked of them: what a polynomial does not need is left open.
-/

namespace Fluxion

/-- The rationals as numbers of the engine: the operators have their exact results, and two
numbers count as equal only when they are. -/
structure ExactRationals [Scalar ℚ] : Prop where
  of_nat (n : ℕ) : Scalar.ofNat n = (n : ℚ)
  finite (a : ℚ) : Scalar.isFinite a = true
  same {a b : ℚ} : Scalar.same a b = true ↔ a = b
  near {a b : ℚ} : Scalar.near Scalar.tolerance a b = true ↔ a = b
  neg (a : ℚ) : Scalar.neg a = -a
  add (a b : ℚ) : Scalar.add a b = some (a + b)
  sub (a b : ℚ) : Scalar.sub a b = some (a - b)
  mul (a b : ℚ) : Scalar.mul a b = some (a * b)
  div {a b : ℚ} : b ≠ 0 → Scalar.div a b = some (a / b)
  pow (a : ℚ) (n : ℕ) : Scalar.pow a (n : ℚ) = some (a ^ n)

namespace Exact

def wholePower (base exponent : ℚ) : Option ℚ :=
  if exponent.den = 1 ∧ (base ≠ 0 ∨ 0 ≤ exponent) then some (base ^ exponent.num) else none

/-- Rational numbers without rounding. The two constants are those of the doubles, and a
named function has no rational value. -/
scoped instance rationals : Scalar ℚ where
  ofNat n := n
  isFinite _ := true
  toInt? a := if a.den = 1 then some a.num else none
  read? text := text.toNat?.map Nat.cast
  text := toString
  same a b := decide (a = b)
  near _ a b := decide (a = b)
  tolerance := 0
  isNegative a := decide (a < 0)
  isNonNegative a := decide (0 ≤ a)
  neg a := -a
  add a b := some (a + b)
  sub a b := some (a - b)
  mul a b := some (a * b)
  div a b := if b = 0 then none else some (a / b)
  pow := wholePower
  apply _ _ := none
  euler := 2718281828459045 / 10 ^ 15
  pi := 3141592653589793 / 10 ^ 15

theorem exact_rationals : ExactRationals where
  of_nat n := rfl
  finite a := rfl
  same := decide_eq_true_iff
  near := decide_eq_true_iff
  neg a := rfl
  add a b := rfl
  sub a b := rfl
  mul a b := rfl
  div nonzero := if_neg nonzero
  pow a n := by
    show wholePower a n = some (a ^ n)
    simp [wholePower]

end Exact

end Fluxion
