import Fluxion.Expr.Substitution
import Fluxion.Proofs.Derivative.Preserved
import Fluxion.Proofs.Polynomial.Rewriting
import Fluxion.Proofs.Simplify.Still

/-!
Trees of polynomials and their derivatives. A derivative has exponents that are still to be
folded, and a zero among them, which the trees here have not; at rest it is again a tree of
a polynomial. Main statement: the optimized derivative of the tree of a polynomial is a tree
of the derivative of that polynomial.
-/

namespace Fluxion

open Outcome Polynomial Simplify Fluxion.Expr

/-- The trees of polynomials in a variable, each with its polynomial. They are made of
numbers, the variable, sums, differences, products, signs and powers with a number that is
a positive natural number. -/
inductive Expr.IsPolynomial (v : String) : Expr ℚ → ℚ[X] → Prop
  | number (value : ℚ) : IsPolynomial v (.num value) (C value)
  | itself : IsPolynomial v (.var v) X
  | plus {operand : Expr ℚ} {p : ℚ[X]} (inner : IsPolynomial v operand p) :
      IsPolynomial v (.signed .plus operand) p
  | minus {operand : Expr ℚ} {p : ℚ[X]} (inner : IsPolynomial v operand p) :
      IsPolynomial v (.signed .minus operand) (-p)
  | sum {lhs rhs : Expr ℚ} {p q : ℚ[X]} (left : IsPolynomial v lhs p)
      (right : IsPolynomial v rhs q) : IsPolynomial v (.binary .add lhs rhs) (p + q)
  | difference {lhs rhs : Expr ℚ} {p q : ℚ[X]} (left : IsPolynomial v lhs p)
      (right : IsPolynomial v rhs q) : IsPolynomial v (.binary .sub lhs rhs) (p - q)
  | product {lhs rhs : Expr ℚ} {p q : ℚ[X]} (left : IsPolynomial v lhs p)
      (right : IsPolynomial v rhs q) : IsPolynomial v (.binary .mul lhs rhs) (p * q)
  | power {base : Expr ℚ} {p : ℚ[X]} {n : ℕ} (left : IsPolynomial v base p) (positive : 0 < n) :
      IsPolynomial v (.binary .pow base (.num n)) (p ^ n)

def Expr.Undivided : Expr ℚ → Prop
  | .missing | .num _ | .var _ => True
  | .binary op lhs rhs => op ≠ .div ∧ lhs.Undivided ∧ rhs.Undivided
  | .signed _ operand | .marked _ operand => operand.Undivided
  | .call _ arg => arg.Undivided

section

variable {v : String} {tree : Expr ℚ} {p q : ℚ[X]}

namespace Expr.IsPolynomial

theorem cast (polynomial : tree.IsPolynomial v p) (same : p = q) : tree.IsPolynomial v q :=
  same ▸ polynomial

theorem means (polynomial : tree.IsPolynomial v p) : Means v tree p := by
  induction polynomial with
  | number value => exact .number value
  | itself => exact .itself
  | plus inner means => exact means.plus
  | minus inner means => exact means.minus
  | sum left right first second => exact first.sum second
  | difference left right first second => exact first.difference second
  | product left right first second => exact first.product second
  | power left positive first => exact first.power (.number _) (.inr positive.ne')

theorem built (named : v ≠ "") (polynomial : tree.IsPolynomial v p) : tree.Built := by
  induction polynomial with
  | number value => exact built_num value
  | itself => exact (built_var v).2 named
  | plus inner built | minus inner built => exact (built_signed _ _).2 ⟨rfl, built⟩
  | sum left right first second | difference left right first second
  | product left right first second => exact (built_binary _ _ _).2 ⟨rfl, first, second⟩
  | power left positive first => exact (built_binary _ _ _).2 ⟨rfl, first, built_num _⟩

theorem marks {allowed : String → Prop} (polynomial : tree.IsPolynomial v p) :
    tree.Marks allowed := by
  induction polynomial with
  | number | itself => trivial
  | plus inner marks | minus inner marks => exact marks
  | sum left right first second | difference left right first second
  | product left right first second => exact ⟨first, second⟩
  | power left positive first => exact ⟨first, trivial⟩

theorem undivided (polynomial : tree.IsPolynomial v p) : tree.Undivided := by
  induction polynomial with
  | number | itself => trivial
  | plus inner undivided | minus inner undivided => exact undivided
  | sum left right first second | difference left right first second
  | product left right first second => exact ⟨nofun, first, second⟩
  | power left positive first => exact ⟨nofun, first, trivial⟩

theorem fill_in (polynomial : tree.IsPolynomial v p) (a : ℚ) :
    (tree.fillIn a v).IsPolynomial v (C (p.eval a)) := by
  induction polynomial with
  | number value => exact (number value).cast (by rw [eval_C])
  | itself =>
      rw [fillIn, if_pos rfl]
      exact (number a).cast (by rw [eval_X])
  | plus inner filled => exact .plus filled
  | minus inner filled => exact (minus filled).cast (by rw [eval_neg, C_neg])
  | sum left right first second => exact (sum first second).cast (by rw [eval_add, C_add])
  | difference left right first second =>
      exact (difference first second).cast (by rw [eval_sub, C_sub])
  | product left right first second =>
      exact (product first second).cast (by rw [eval_mul, C_mul])
  | power left positive first => exact (power first positive).cast (by rw [eval_pow, C_pow])

end Expr.IsPolynomial

/-- A product with zero means zero, whatever the other factor is to be. -/
theorem Means.product_zero {lhs rhs : Expr ℚ} (left : Denotes v lhs p) (right : Means v rhs 0) :
    Means v (.binary .mul lhs rhs) 0 where
  denotes := (Denotes.product left right.denotes).cast (mul_zero p)
  unique other := by
    cases other with
    | product left' right' => rw [right.unique right', mul_zero]

end

variable [Scalar ℚ] {v : String} {tree tree' raw : Expr ℚ} {p : ℚ[X]}

theorem Simplify.Rewrites.undivided (rewrites : Rewrites Scalar.tolerance tree tree')
    (undivided : tree.Undivided) : tree'.Undivided := by
  induction rewrites with
  | refl tree => exact undivided
  | trans before after first second => exact second (first undivided)
  | binary op left right first second =>
      exact ⟨undivided.1, first undivided.2.1, second undivided.2.2⟩
  | signed op inner induction | marked op inner induction | call name inner induction =>
      exact induction undivided
  | folded folds => trivial
  | binaryRule rule =>
      cases rule with
      | zeroPlus | zeroMinus | oneTimes => exact undivided.2.2
      | plusZero | minusZero | timesOne | overOne | powerOne => exact undivided.2.1
      | plusSame => exact ⟨nofun, trivial, undivided.2.1⟩
      | minusSame | zeroTimes | timesZero | zeroOver | overSame | zeroPower | onePower |
        powerZero => trivial
  | signRule rule =>
      cases rule with
      | number => trivial
      | plus | minusMinus | minusOther => exact undivided
  | callRule rule => cases rule <;> trivial

theorem optimize_number {a : ℚ} (optimized : (Expr.num a).optimize = .ok tree) : tree = .num a :=
  (optimize_rewrites optimized).of_number

theorem Expr.IsPolynomial.undivided_derivative (polynomial : tree.IsPolynomial v p)
    (derives : tree.DerivesTo v raw) : raw.Undivided := by
  induction polynomial generalizing raw with
  | number | itself => cases derives <;> trivial
  | plus inner induction | minus inner induction =>
      cases derives with
      | sign op argument =>
          have undivided := induction argument
          exact undivided
  | sum left right first second =>
      cases derives with
      | sum derivesLeft derivesRight => exact ⟨nofun, first derivesLeft, second derivesRight⟩
  | difference left right first second =>
      cases derives with
      | difference derivesLeft derivesRight =>
          exact ⟨nofun, first derivesLeft, second derivesRight⟩
  | product left right first second =>
      cases derives with
      | product derivesLeft derivesRight =>
          exact ⟨nofun, ⟨nofun, left.undivided, second derivesRight⟩,
            ⟨nofun, first derivesLeft, right.undivided⟩⟩
  | power left positive first =>
      cases derives with
      | powerOfZero => trivial
      | power constant optimized nonzero derivesLeft =>
          cases optimize_number optimized
          exact ⟨nofun, ⟨nofun, trivial, nofun, left.undivided, nofun, trivial, trivial⟩,
            first derivesLeft⟩
      | exponential varying | generalPower varying => cases varying

variable (exact : ExactRationals)

include exact

theorem Exponent.of_still {base exponent : Expr ℚ} {n : ℕ} (natural : Exponent exponent n)
    (built : (Expr.binary .pow base exponent).Built)
    (still : Settles Scalar.tolerance 0 (.binary .pow base exponent)) :
    0 < n ∧ exponent = .num n := by
  obtain ⟨-, stillExponent, irreducible⟩ := still_binary built still
  cases natural with
  | number n =>
      refine ⟨Nat.pos_of_ne_zero ?_, rfl⟩
      rintro rfl
      have zero : isValue Scalar.tolerance (.num ((0 : ℕ) : ℚ)) 0 = true :=
        (is_value_iff exact).2 rfl
      simp only [reduceBinary, reducePower, zero, if_true] at irreducible
      split at irreducible
      · cases irreducible
      split at irreducible <;> cases irreducible
  | lowered n =>
      have outside := still_numbers rfl stillExponent
      rw [BinaryOp.fold, exact.sub] at outside
      cases outside

namespace Expr.IsPolynomial

/-- The rules of differentiation differentiate the polynomial. -/
theorem means_derivative (polynomial : tree.IsPolynomial v p) (derives : tree.DerivesTo v raw) :
    Means v raw p.derivative := by
  have zero : Means v (.num (Scalar.ofNat 0)) 0 := by
    rw [exact.of_nat, Nat.cast_zero, ← C_0]
    exact .number 0
  induction polynomial generalizing raw with
  | number value =>
      cases derives
      rw [derivative_C]
      exact zero
  | itself =>
      cases derives with
      | itself =>
          rw [exact.of_nat, Nat.cast_one, derivative_X, ← C_1]
          exact .number 1
      | other differs => exact absurd rfl differs
  | plus inner induction =>
      cases derives with
      | sign op argument => exact (induction argument).plus
  | minus inner induction =>
      cases derives with
      | sign op argument =>
          rw [derivative_neg]
          exact (induction argument).minus
  | sum left right first second =>
      cases derives with
      | sum derivesLeft derivesRight =>
          rw [derivative_add]
          exact (first derivesLeft).sum (second derivesRight)
  | difference left right first second =>
      cases derives with
      | difference derivesLeft derivesRight =>
          rw [derivative_sub]
          exact (first derivesLeft).difference (second derivesRight)
  | product left right first second =>
      cases derives with
      | product derivesLeft derivesRight =>
          rw [derivative_mul, add_comm]
          exact (left.means.product (second derivesRight)).sum
            ((first derivesLeft).product right.means)
  | @power base p n left positive first =>
      obtain ⟨m, rfl⟩ := Nat.exists_eq_succ_of_ne_zero positive.ne'
      cases derives with
      | powerOfZero constant optimized zero =>
          cases optimize_number optimized
          have none := Expr.num.inj ((is_value_iff exact).1 zero)
          exact absurd (Nat.cast_injective none) (Nat.succ_ne_zero m)
      | power constant optimized nonzero derivesLeft =>
          cases optimize_number optimized
          rw [derivative_pow_succ, exact.of_nat, Nat.cast_one, Nat.cast_succ]
          have exponent : Exponent (.binary .sub (.num (m + 1)) (.num 1)) m := .lowered m
          have factor : Means v (.num ((m : ℚ) + 1)) (C ((m : ℚ) + 1)) := .number _
          by_cases zeroToZero : p = 0 ∧ m = 0
          · obtain ⟨rfl, rfl⟩ := zeroToZero
            have slope := first derivesLeft
            rw [derivative_zero] at slope ⊢
            rw [mul_zero]
            exact .product_zero (.product factor.denotes (.power left.means.denotes exponent)) slope
          · have lowered := left.means.power exponent (not_and_or.1 zeroToZero)
            exact (factor.product lowered).product (first derivesLeft)
      | exponential varying | generalPower varying => cases varying

/-- At rest, a tree that denotes a polynomial is a tree of that polynomial. -/
theorem of_still (built : tree.Built) (still : Settles Scalar.tolerance 0 tree)
    (undivided : tree.Undivided) (denotes : Denotes v tree p) : tree.IsPolynomial v p := by
  induction denotes with
  | number value => exact .number value
  | itself => exact .itself
  | plus inner induction =>
      have reduces := (still_signed built still).2
      cases reduces
  | minus inner induction =>
      have stillInner := (still_signed built still).1
      exact .minus (induction ((built_signed _ _).1 built).2 stillInner undivided)
  | sum left right first second =>
      obtain ⟨-, builtLeft, builtRight⟩ := (built_binary _ _ _).1 built
      obtain ⟨stillLeft, stillRight, -⟩ := still_binary built still
      exact .sum (first builtLeft stillLeft undivided.2.1)
        (second builtRight stillRight undivided.2.2)
  | difference left right first second =>
      obtain ⟨-, builtLeft, builtRight⟩ := (built_binary _ _ _).1 built
      obtain ⟨stillLeft, stillRight, -⟩ := still_binary built still
      exact .difference (first builtLeft stillLeft undivided.2.1)
        (second builtRight stillRight undivided.2.2)
  | product left right first second =>
      obtain ⟨-, builtLeft, builtRight⟩ := (built_binary _ _ _).1 built
      obtain ⟨stillLeft, stillRight, -⟩ := still_binary built still
      exact .product (first builtLeft stillLeft undivided.2.1)
        (second builtRight stillRight undivided.2.2)
  | quotient left nonzero first => exact absurd rfl undivided.1
  | power left natural first =>
      obtain ⟨positive, rfl⟩ := natural.of_still exact built still
      exact .power (first ((built_binary _ _ _).1 built).2.1 (still_binary built still).1
        undivided.2.1) positive
  | zeroToZero left natural first =>
      obtain ⟨positive, -⟩ := natural.of_still exact built still
      exact absurd positive (Nat.lt_irrefl 0)

theorem optimized_derivative (named : v ≠ "") (polynomial : tree.IsPolynomial v p)
    (derives : tree.DerivesTo v raw) (optimized : raw.optimize = .ok tree') :
    tree'.IsPolynomial v p.derivative := by
  have rewrites := optimize_rewrites optimized
  have builtRaw := derives.built (polynomial.built named)
  have means := (polynomial.means_derivative exact derives).rewrites exact rewrites
  have undivided := rewrites.undivided (polynomial.undivided_derivative derives)
  exact of_still exact (rewrites.built builtRaw) (still_of_optimize builtRaw optimized) undivided
    means.denotes

end Expr.IsPolynomial

end Fluxion
