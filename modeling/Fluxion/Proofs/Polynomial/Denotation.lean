import Fluxion.Expr.Evaluation
import Fluxion.Proofs.Outcome
import Fluxion.Proofs.Scalar.Rational
import Mathlib.Algebra.Polynomial.AlgebraMap
import Mathlib.Algebra.Polynomial.Derivative

/-!
Trees that denote polynomials. The one node whose polynomial is open is zero to the power
of zero, which folding makes one and simplification makes zero; it may denote either, and a
tree means a polynomial if it denotes no other. Main statement: over exact rationals a tree
evaluates to the value of the polynomial that it means.
-/

namespace Fluxion

open Outcome Polynomial Fluxion.Expr

/-- The exponents of the derivatives of a polynomial: a number, or one that a
differentiation has lowered. -/
inductive Exponent : Expr ℚ → ℕ → Prop
  | number (n : ℕ) : Exponent (.num n) n
  | lowered (n : ℕ) : Exponent (.binary .sub (.num (n + 1)) (.num 1)) n

inductive Denotes (v : String) : Expr ℚ → ℚ[X] → Prop
  | number (value : ℚ) : Denotes v (.num value) (C value)
  | itself : Denotes v (.var v) X
  | plus {operand : Expr ℚ} {p : ℚ[X]} (inner : Denotes v operand p) :
      Denotes v (.signed .plus operand) p
  | minus {operand : Expr ℚ} {p : ℚ[X]} (inner : Denotes v operand p) :
      Denotes v (.signed .minus operand) (-p)
  | sum {lhs rhs : Expr ℚ} {p q : ℚ[X]} (left : Denotes v lhs p) (right : Denotes v rhs q) :
      Denotes v (.binary .add lhs rhs) (p + q)
  | difference {lhs rhs : Expr ℚ} {p q : ℚ[X]} (left : Denotes v lhs p)
      (right : Denotes v rhs q) : Denotes v (.binary .sub lhs rhs) (p - q)
  | product {lhs rhs : Expr ℚ} {p q : ℚ[X]} (left : Denotes v lhs p) (right : Denotes v rhs q) :
      Denotes v (.binary .mul lhs rhs) (p * q)
  | quotient {lhs : Expr ℚ} {p : ℚ[X]} {divisor : ℚ} (left : Denotes v lhs p)
      (nonzero : divisor ≠ 0) : Denotes v (.binary .div lhs (.num divisor)) (C divisor⁻¹ * p)
  | power {base exponent : Expr ℚ} {p : ℚ[X]} {n : ℕ} (left : Denotes v base p)
      (natural : Exponent exponent n) : Denotes v (.binary .pow base exponent) (p ^ n)
  | zeroToZero {base exponent : Expr ℚ} (left : Denotes v base 0)
      (natural : Exponent exponent 0) : Denotes v (.binary .pow base exponent) 0

section

variable {v : String} {tree tree' lhs rhs operand : Expr ℚ} {p q : ℚ[X]} {n m : ℕ}

theorem Exponent.unique (exponent : Exponent tree n) (other : Exponent tree m) : n = m := by
  generalize same : tree = tree' at other
  cases exponent with
  | number n =>
      cases other with
      | number m => exact Nat.cast_injective (Expr.num.inj same)
      | lowered m => cases same
  | lowered n =>
      cases other with
      | number m => cases same
      | lowered m =>
          injection same with _ same
          injection same with same
          exact_mod_cast add_right_cancel same

theorem Denotes.cast (denotes : Denotes v tree p) (same : p = q) : Denotes v tree q :=
  same ▸ denotes

structure Means (v : String) (tree : Expr ℚ) (p : ℚ[X]) : Prop where
  denotes : Denotes v tree p
  unique {q : ℚ[X]} : Denotes v tree q → q = p

namespace Means

theorem number (value : ℚ) : Means v (.num value) (C value) where
  denotes := .number value
  unique other := by
    cases other
    rfl

theorem itself : Means v (.var v) X where
  denotes := .itself
  unique other := by
    cases other
    rfl

theorem plus (inner : Means v operand p) : Means v (.signed .plus operand) p where
  denotes := .plus inner.denotes
  unique other := by
    cases other with
    | plus inner' => exact inner.unique inner'

theorem minus (inner : Means v operand p) : Means v (.signed .minus operand) (-p) where
  denotes := .minus inner.denotes
  unique other := by
    cases other with
    | minus inner' => rw [inner.unique inner']

theorem sum (left : Means v lhs p) (right : Means v rhs q) :
    Means v (.binary .add lhs rhs) (p + q) where
  denotes := .sum left.denotes right.denotes
  unique other := by
    cases other with
    | sum left' right' => rw [left.unique left', right.unique right']

theorem difference (left : Means v lhs p) (right : Means v rhs q) :
    Means v (.binary .sub lhs rhs) (p - q) where
  denotes := .difference left.denotes right.denotes
  unique other := by
    cases other with
    | difference left' right' => rw [left.unique left', right.unique right']

theorem product (left : Means v lhs p) (right : Means v rhs q) :
    Means v (.binary .mul lhs rhs) (p * q) where
  denotes := .product left.denotes right.denotes
  unique other := by
    cases other with
    | product left' right' => rw [left.unique left', right.unique right']

theorem quotient {divisor : ℚ} (left : Means v lhs p) (nonzero : divisor ≠ 0) :
    Means v (.binary .div lhs (.num divisor)) (C divisor⁻¹ * p) where
  denotes := .quotient left.denotes nonzero
  unique other := by
    cases other with
    | quotient left' => rw [left.unique left']

theorem power (left : Means v lhs p) (natural : Exponent rhs n) (regular : p ≠ 0 ∨ n ≠ 0) :
    Means v (.binary .pow lhs rhs) (p ^ n) where
  denotes := .power left.denotes natural
  unique other := by
    cases other with
    | power left' natural' => rw [left.unique left', natural.unique natural']
    | zeroToZero left' natural' =>
        have zeroBase := left.unique left'
        have zeroExponent := natural.unique natural'
        rcases regular with nonzero | nonzero
        · exact absurd zeroBase.symm nonzero
        · exact absurd zeroExponent nonzero

end Means

end

variable [Scalar ℚ] {v : String} {tree : Expr ℚ} (exact : ExactRationals)

include exact

theorem evaluate_power {base exponent : Expr ℚ} {bindings : Bindings ℚ} {p : ℚ[X]} {n : ℕ} {b : ℚ}
    (natural : Exponent exponent n) (value : base.evaluateIn bindings = .ok (p.eval b)) :
    (Expr.binary .pow base exponent).evaluateIn bindings = .ok ((p ^ n).eval b) := by
  have valueExponent : exponent.evaluateIn bindings = .ok (n : ℚ) := by
    cases natural with
    | number n => rfl
    | lowered n => simp [evaluateIn, BinaryOp.fold, exact.sub]
  simp [evaluateIn, value, valueExponent, BinaryOp.fold, exact.pow]

/-- A tree evaluates to the value of a polynomial that it denotes. -/
theorem Denotes.evaluates {p : ℚ[X]} (denotes : Denotes v tree p) (b : ℚ)
    (environment : Bindings ℚ) :
    ∃ q, Denotes v tree q ∧ tree.evaluate b v environment = .ok (q.eval b) := by
  unfold evaluate
  generalize bound : Bindings.ofVariable v b environment = bindings
  induction denotes with
  | number value => exact ⟨_, .number value, by simp [evaluateIn]⟩
  | itself => exact ⟨_, .itself, by simp [evaluateIn, ← bound, Bindings.ofVariable]⟩
  | plus inner induction =>
      obtain ⟨q, denotes, value⟩ := induction
      exact ⟨q, .plus denotes, by simp [evaluateIn, value]⟩
  | minus inner induction =>
      obtain ⟨q, denotes, value⟩ := induction
      exact ⟨-q, .minus denotes, by simp [evaluateIn, value, exact.neg]⟩
  | sum left right first second =>
      obtain ⟨q, denotesLeft, valueLeft⟩ := first
      obtain ⟨r, denotesRight, valueRight⟩ := second
      refine ⟨q + r, .sum denotesLeft denotesRight, ?_⟩
      simp [evaluateIn, valueLeft, valueRight, BinaryOp.fold, exact.add]
  | difference left right first second =>
      obtain ⟨q, denotesLeft, valueLeft⟩ := first
      obtain ⟨r, denotesRight, valueRight⟩ := second
      refine ⟨q - r, .difference denotesLeft denotesRight, ?_⟩
      simp [evaluateIn, valueLeft, valueRight, BinaryOp.fold, exact.sub]
  | product left right first second =>
      obtain ⟨q, denotesLeft, valueLeft⟩ := first
      obtain ⟨r, denotesRight, valueRight⟩ := second
      refine ⟨q * r, .product denotesLeft denotesRight, ?_⟩
      simp [evaluateIn, valueLeft, valueRight, BinaryOp.fold, exact.mul]
  | @quotient lhs p divisor left nonzero first =>
      obtain ⟨q, denotesLeft, valueLeft⟩ := first
      refine ⟨C divisor⁻¹ * q, .quotient denotesLeft nonzero, ?_⟩
      simp [evaluateIn, valueLeft, BinaryOp.fold, exact.div nonzero, div_eq_inv_mul]
  | power left natural first | zeroToZero left natural first =>
      obtain ⟨q, denotesLeft, valueLeft⟩ := first
      exact ⟨_, .power denotesLeft natural, evaluate_power exact natural valueLeft⟩

theorem Means.evaluate {p : ℚ[X]} (means : Means v tree p) (b : ℚ) (environment : Bindings ℚ) :
    tree.evaluate b v environment = .ok (p.eval b) := by
  obtain ⟨q, denotes, value⟩ := means.denotes.evaluates exact b environment
  rw [value, means.unique denotes]

end Fluxion
