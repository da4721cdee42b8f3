import Fluxion.Expr.Taylor
import Fluxion.Proofs.Polynomial.Weight
import Mathlib.Algebra.Polynomial.Taylor
import Mathlib.Tactic.ComputeDegree

/-!
Taylor polynomials of polynomials. The derivatives of the tree of a polynomial are trees of
its derivatives, the coefficients mean their values at the centre, and the sum of the terms
means the polynomial itself once the order is not below its degree. Main statement: over
exact rationals the Taylor polynomial of such a tree has the values of the tree, around any
centre and at any point, unless the sweeps of optimization run out.
-/

namespace Fluxion

open Outcome Polynomial Simplify Fluxion.Expr

theorem factorial_eq (n : ℕ) : Expr.factorial n = n.factorial := by
  induction n with
  | zero => rfl
  | succ n induction => rw [Expr.factorial, Nat.factorial_succ, induction]

section

variable (p : ℚ[X]) (a : ℚ)

noncomputable def taylorPart (i : ℕ) : ℚ[X] :=
  C (i.factorial : ℚ)⁻¹ * C ((derivative^[i] p).eval a) * (X - C a) ^ i

theorem eval_derivative (i : ℕ) :
    (derivative^[i] p).eval a = i.factorial * (taylor a p).coeff i := by
  rw [← factorial_smul_hasseDeriv, taylor_coeff, LinearMap.smul_apply, eval_smul, nsmul_eq_mul]

/-- The terms up to the degree make up the polynomial. -/
theorem sum_taylor_part {order : ℕ} (enough : p.natDegree ≤ order) :
    ∑ i ∈ Finset.range (order + 1), taylorPart p a i = p := by
  have below : (taylor a p).natDegree < order + 1 := by
    rw [natDegree_taylor]
    exact Nat.lt_succ_of_le enough
  calc ∑ i ∈ Finset.range (order + 1), taylorPart p a i
      = ∑ i ∈ Finset.range (order + 1), C ((taylor a p).coeff i) * (X - C a) ^ i := by
        apply Finset.sum_congr rfl
        intro i _
        have nonzero : (i.factorial : ℚ) ≠ 0 := Nat.cast_ne_zero.2 i.factorial_ne_zero
        rw [taylorPart, eval_derivative, ← C_mul, inv_mul_cancel_left₀ nonzero]
    _ = (taylor a p).sum fun i c => C c * (X - C a) ^ i := by
        symm
        apply sum_over_range' _ _ _ below
        intro i
        rw [C_0, zero_mul]
    _ = p := sum_taylor_eq p a

end

/-- Trees of successive derivatives of a polynomial, from an order on, of limited depth. -/
def Successive (v : String) (limit : Nat) (p : ℚ[X]) : ℕ → List (Expr ℚ) → Prop
  | _, [] => True
  | order, tree :: rest => tree.IsPolynomial v (derivative^[order] p) ∧ tree.height ≤ limit ∧
      Successive v limit p (order + 1) rest

namespace Expr

variable [Scalar ℚ] {v : String} {limit : Nat}

variable (exact : ExactRationals) (named : v ≠ "")

include exact named

/-- The derivative of the tree of a polynomial: such a tree again, and no deeper than the
tree was allowed to make it. -/
theorem polynomial_derivative_completes {tree : Expr ℚ} {p : ℚ[X]}
    (polynomial : tree.IsPolynomial v p) :
    Completes (tree.derivative v)
      (fun next => next.IsPolynomial v p.derivative ∧
        ∀ order, next.height ≤ next.weight order ∧ next.weight order ≤ tree.weight (order + 1))
      (4 * tree.height) := by
  have built := polynomial.built named
  have marks : tree.Marks fun _ => False := polynomial.marks
  refine (derivative_completes built marks).imp fun next ⟨raw, derives, optimized⟩ => ?_
  have builtRaw := derives.built built
  have rewrites := optimize_rewrites optimized
  have next' := polynomial.optimized_derivative exact named derives optimized
  have still := still_of_optimize builtRaw optimized
  refine ⟨next', fun order => ⟨?_, ?_⟩⟩
  · exact (next'.height_le_weight exact order (rewrites.built builtRaw) still).2
  · exact (rewrites.weight_le exact).trans (polynomial.weight_derivative exact derives)

theorem derivatives_complete {left order : Nat} {tree : Expr ℚ} {p : ℚ[X]}
    (polynomial : tree.IsPolynomial v (Polynomial.derivative^[order] p))
    (low : tree.height ≤ limit) (light : tree.weight left ≤ limit) :
    Completes (derivativesFrom v left tree)
      (fun trees => trees.length = left + 1 ∧ Successive v limit p order trees)
      (4 * limit) := by
  induction left generalizing order tree with
  | zero => exact completes_ok ⟨rfl, polynomial, low, trivial⟩
  | succ left induction =>
      have step := polynomial_derivative_completes exact named polynomial
      refine (step.mono (Nat.mul_le_mul_left 4 low)).bind fun next ⟨next', bounds⟩ => ?_
      obtain ⟨deep, lighter⟩ := bounds left
      have again : next.IsPolynomial v (Polynomial.derivative^[order + 1] p) := by
        rw [Function.iterate_succ_apply']
        exact next'
      have rest := induction again (by omega) (by omega)
      refine rest.bind fun trees ⟨count, successive⟩ => ?_
      exact completes_ok ⟨congrArg Nat.succ count, polynomial, low, successive⟩

theorem taylor_term_completes (a : ℚ) (order : Nat) {tree : Expr ℚ} {p : ℚ[X]}
    (polynomial : tree.IsPolynomial v (Polynomial.derivative^[order] p))
    (low : tree.height ≤ limit) :
    Completes (taylorTerm order a v tree)
      (fun term => term.Built ∧ Means v term (taylorPart p a order) ∧ term.height ≤ limit + 3)
      limit := by
  have built := polynomial.built named
  have filled := polynomial.fill_in a
  have builtFilled := filled.built named
  have same : (tree.fillIn a v).height = tree.height := height_fill_in a v tree
  have coefficient : Completes (tree.optimizedAt a v) ((tree.fillIn a v).optimize = .ok ·)
      limit := by
    rw [optimizedAt, substitute, if_pos built.whole]
    exact (optimize_completes builtFilled).mono (by omega)
  have positive := height_positive tree
  refine coefficient.bind fun optimized done => ?_
  have rewrites := optimize_rewrites done
  have lower := rewrites.height_le
  have made : makeVariable v = .ok (.var v : Expr ℚ) := make_variable_ok.2 ⟨named, rfl⟩
  have whole (n : Nat) : makeWhole n = .ok (.num (n : ℚ)) := by
    rw [makeWhole, exact.of_nat, exact.finite]
    rfl
  rw [made, whole, whole]
  have shift : Means v (.binary .sub (.var v) (.num a)) (X - C a) :=
    Means.itself.difference (.number a)
  have nonzero : (Expr.factorial order : ℚ) ≠ 0 := by
    rw [factorial_eq]
    exact Nat.cast_ne_zero.2 order.factorial_ne_zero
  have value := (filled.means.rewrites exact rewrites).quotient nonzero
  have power := shift.power (.number order) (.inl (X_sub_C_ne_zero a))
  refine completes_ok ⟨?_, ?_, ?_⟩
  · simp [BinaryOp.isKnown, rewrites.built builtFilled, named]
  · rw [taylorPart, ← factorial_eq]
    exact value.product power
  · simp only [height]
    omega

theorem taylor_sum_completes (a : ℚ) {order : Nat} {sum : Expr ℚ} {trees : List (Expr ℚ)}
    {p : ℚ[X]} (successive : Successive v limit p order trees) (built : sum.Built)
    (means : Means v sum (∑ i ∈ Finset.range order, taylorPart p a i))
    (started : 0 < order) (low : sum.height ≤ limit + 2 + order) :
    Completes (taylorSum a v order sum trees)
      (fun total => total.Built ∧
        Means v total (∑ i ∈ Finset.range (order + trees.length), taylorPart p a i) ∧
        total.height ≤ limit + 2 + order + trees.length)
      limit := by
  induction trees generalizing order sum with
  | nil => exact completes_ok ⟨built, means, low⟩
  | cons tree rest induction =>
      obtain ⟨polynomial, lowTree, later⟩ := successive
      have next := taylor_term_completes exact named a order polynomial lowTree
      refine next.bind fun term ⟨builtTerm, meansTerm, lowTerm⟩ => ?_
      have added : Means v (.binary .add sum term)
          (∑ i ∈ Finset.range (order + 1), taylorPart p a i) := by
        rw [Finset.sum_range_succ]
        exact means.sum meansTerm
      have lowSum : (Expr.binary .add sum term).height ≤ limit + 2 + (order + 1) := by
        simp only [height]
        omega
      have total := induction later ((built_binary _ _ _).2 ⟨rfl, built, builtTerm⟩) added
        (Nat.succ_pos order) lowSum
      rw [List.length_cons, Nat.add_comm rest.length 1, ← Nat.add_assoc, ← Nat.add_assoc]
      exact total

theorem derivatives_limited {order : Nat} {tree : Expr ℚ} {p : ℚ[X]}
    (polynomial : tree.IsPolynomial v p) (limits : (order + 1) ^ 2 * tree.height = limit) :
    Completes (tree.derivatives order v)
      (fun trees => trees.length = order + 1 ∧ Successive v limit p 0 trees) (4 * limit) := by
  have light : tree.weight order ≤ limit := limits ▸ weight_le_height order tree
  have low : tree.height ≤ limit :=
    limits ▸ Nat.le_mul_of_pos_left _ (Nat.pow_pos (Nat.succ_pos order))
  rw [derivatives, if_neg (by omega), whole_of_built (polynomial.built named)]
  exact derivatives_complete exact named polynomial low light

/-- The Taylor polynomial of the tree of a polynomial means that polynomial, if the order is
not below its degree. -/
theorem taylor_polynomial_completes {order : Nat} {tree : Expr ℚ} {p : ℚ[X]}
    (polynomial : tree.IsPolynomial v p) (enough : p.natDegree ≤ order)
    (limits : (order + 1) ^ 2 * tree.height = limit) (a : ℚ) :
    Completes (tree.taylorPolynomial order a v) (Means v · p) (4 * limit) := by
  have wide : order + 3 ≤ 3 * limit := by
    have square : order + 1 ≤ (order + 1) ^ 2 := Nat.le_self_pow (by decide) _
    have more : (order + 1) ^ 2 ≤ limit :=
      limits ▸ Nat.le_mul_of_pos_right _ (height_positive tree)
    omega
  have trees := derivatives_limited exact named polynomial limits
  refine trees.bind fun trees ⟨count, successive⟩ => ?_
  cases trees with
  | nil => cases count
  | cons first rest =>
      obtain ⟨polynomialFirst, lowFirst, later⟩ := successive
      have start := taylor_term_completes exact named a 0 polynomialFirst lowFirst
      refine (start.mono (by omega)).bind fun term ⟨builtTerm, meansTerm, lowTerm⟩ => ?_
      rw [← Finset.sum_range_one (taylorPart p a)] at meansTerm
      have total := taylor_sum_completes exact named a later builtTerm meansTerm one_pos lowTerm
      refine (total.mono (by omega)).bind fun sum ⟨builtSum, meansSum, lowSum⟩ => ?_
      rw [List.length_cons] at count
      rw [Nat.add_comm 1, count, sum_taylor_part p a enough] at meansSum
      rcases (optimize_completes builtSum).mono (show sum.height ≤ 4 * limit by omega) with
        ⟨result, done, optimized⟩ | failed
      · exact .inl ⟨result, done, meansSum.rewrites exact (optimize_rewrites optimized)⟩
      · exact .inr failed

/-- Over exact rationals the Taylor polynomial of a polynomial, of an order that is not
below its degree, has the value of the polynomial at every point. The other case is a tree
so deep, for this order, that sweeps run out. -/
theorem taylor_polynomial_exact {tree : Expr ℚ} {p : ℚ[X]} (polynomial : tree.IsPolynomial v p)
    {order : Int} (enough : (p.natDegree : Int) ≤ order) (a : ℚ) :
    (∃ result, tree.taylorPolynomial order a v = .ok result ∧
      ∀ (b : ℚ) (environment : Bindings ℚ), ∃ value,
        result.evaluate b v environment = .ok value ∧
          tree.evaluate b v environment = .ok value) ∨
    (tree.taylorPolynomial order a v = .error (.simplification (.unsettled sweepLimit)) ∧
      sweepLimit ≤ 4 * ((order.toNat + 1) ^ 2 * tree.depth)) := by
  obtain ⟨n, rfl⟩ := Int.eq_ofNat_of_zero_le (Int.le_trans (Int.natCast_nonneg _) enough)
  rw [Int.toNat_natCast, depth_eq_height]
  rcases taylor_polynomial_completes exact named polynomial (Int.ofNat_le.1 enough) rfl a with
    ⟨result, done, means⟩ | failed
  · refine .inl ⟨result, done, fun b environment => ⟨p.eval b, ?_, ?_⟩⟩
    · exact means.evaluate exact b environment
    · exact polynomial.means.evaluate exact b environment
  · exact .inr failed

end Expr

section

open Exact

/-- Around 1, the Taylor polynomial of `x^2 - 3*x` has the value 4 at 4. -/
theorem Expr.taylor_polynomial_exact_of_quadratic :
    ∃ result, (binary .sub (binary .pow (var "x") (num (2 : ℚ)))
        (binary .mul (num 3) (var "x"))).taylorPolynomial 2 1 "x" = .ok result ∧
      result.evaluate 4 "x" Bindings.none = .ok 4 := by
  have polynomial : (binary .sub (binary .pow (var "x") (num (2 : ℚ)))
      (binary .mul (num 3) (var "x"))).IsPolynomial "x" (X ^ 2 - C 3 * X) :=
    .difference (.power .itself two_pos) (.product (.number 3) .itself)
  have degree : (X ^ 2 - C 3 * X : ℚ[X]).natDegree ≤ 2 := by compute_degree
  have degree : ((X ^ 2 - C 3 * X : ℚ[X]).natDegree : Int) ≤ 2 := by exact_mod_cast degree
  rcases taylor_polynomial_exact exact_rationals (by decide) polynomial degree 1 with
    ⟨result, done, same⟩ | ⟨-, deep⟩
  · refine ⟨result, done, ?_⟩
    obtain ⟨value, evaluated, source⟩ := same 4 Bindings.none
    rw [polynomial.means.evaluate exact_rationals] at source
    rw [evaluated, ← source]
    norm_num
  · simp [depth_eq_height, height, sweepLimit] at deep

end

end Fluxion
