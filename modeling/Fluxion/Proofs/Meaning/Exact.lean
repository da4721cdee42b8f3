import Fluxion.Scalar.Basic
import Mathlib

/-!
Exact real arithmetic. The operators and the named functions as the partial real
functions that the engine approximates, and the numbers without rounding that they
make. Nothing here can be run; it is what a statement about exact numbers is tried on.
-/

namespace Fluxion.Exact

open Classical

/-- Where a power of reals is a real: at a positive base, at a zero that is not
raised to a negative exponent, and at a negative base with a whole exponent. -/
def PowerDefined (base exponent : ℝ) : Prop :=
  0 < base ∨ base = 0 ∧ 0 ≤ exponent ∨ base < 0 ∧ ∃ n : ℤ, exponent = n

noncomputable def divide (a b : ℝ) : Option ℝ := if b = 0 then none else some (a / b)

noncomputable def power (base exponent : ℝ) : Option ℝ :=
  if PowerDefined base exponent then some (base ^ exponent) else none

noncomputable def apply : NamedFunction → ℝ → Option ℝ
  | .sin, x => some (Real.sin x)
  | .cos, x => some (Real.cos x)
  | .tg, x => if Real.cos x = 0 then none else some (Real.tan x)
  | .ctg, x => if Real.sin x = 0 then none else some (Real.cot x)
  | .ln, x => if 0 < x then some (Real.log x) else none

/-- The reals as numbers of the engine; two of them count as equal only when they
are, whatever the tolerance. -/
noncomputable scoped instance reals : Scalar ℝ where
  ofNat n := n
  isFinite _ := true
  toInt? x := if x = ⌊x⌋ then some ⌊x⌋ else none
  read? text := text.toNat?.map Nat.cast
  text x := toString ⌊x⌋
  same a b := decide (a = b)
  near _ a b := decide (a = b)
  tolerance := 0
  isNegative x := decide (x < 0)
  isNonNegative x := decide (0 ≤ x)
  neg x := -x
  add a b := some (a + b)
  sub a b := some (a - b)
  mul a b := some (a * b)
  div := divide
  pow := power
  apply := apply
  euler := Real.exp 1
  pi := Real.pi

section

open Scalar

@[simp] theorem of_nat_real (n : Nat) : (ofNat n : ℝ) = n := rfl

@[simp] theorem same_real {a b : ℝ} : same a b = true ↔ a = b := decide_eq_true_iff

@[simp] theorem near_real {epsilon a b : ℝ} : near epsilon a b = true ↔ a = b :=
  decide_eq_true_iff

@[simp] theorem is_non_negative_real {a : ℝ} : isNonNegative a = true ↔ 0 ≤ a :=
  decide_eq_true_iff

@[simp] theorem neg_real (a : ℝ) : neg a = -a := rfl

@[simp] theorem add_real (a b : ℝ) : add a b = some (a + b) := rfl

@[simp] theorem sub_real (a b : ℝ) : sub a b = some (a - b) := rfl

@[simp] theorem mul_real (a b : ℝ) : mul a b = some (a * b) := rfl

@[simp] theorem div_real (a b : ℝ) : div a b = divide a b := rfl

@[simp] theorem pow_real (a b : ℝ) : pow a b = power a b := rfl

@[simp] theorem apply_real (f : NamedFunction) (a : ℝ) : Scalar.apply f a = apply f a := rfl

@[simp] theorem euler_real : (euler : ℝ) = Real.exp 1 := rfl

end

theorem divide_some {a b c : ℝ} : divide a b = some c ↔ b ≠ 0 ∧ a / b = c := by
  unfold divide
  split <;> simp_all

theorem power_some {a b c : ℝ} : power a b = some c ↔ PowerDefined a b ∧ a ^ b = c := by
  unfold power
  split <;> simp_all

theorem power_defined_of_natural (a : ℝ) (n : ℕ) : PowerDefined a n := by
  rcases lt_trichotomy a 0 with negative | zero | positive
  · exact .inr (.inr ⟨negative, n, by simp⟩)
  · exact .inr (.inl ⟨zero, Nat.cast_nonneg n⟩)
  · exact .inl positive

end Fluxion.Exact
