import Fluxion.Algebra.ToExpr
import Fluxion.Proofs.Decimal.Integral
import Fluxion.Proofs.Expr.Binding
import Fluxion.Proofs.Notation.RoundTrip

/-!
The expressions of elementary terms, those of numbers, names, operations and functions of
one argument. However the algebra system orders sums and products and splits products and
powers, signs and ratios become nodes of the tree, and no number in it is negative or a
fraction. Main statement: every elementary term has an expression, and the text of that
expression parses to the expression itself unless it is too deep.
-/

namespace Fluxion

open Outcome Scalar Term

variable {α : Type} [Scalar α]

def Scalar.IsCount (a : α) : Prop :=
  isFinite a = true ∧ isNonNegative a = true ∧ ∃ n : Nat, toInt? a = some (n : Int)

/-- The terms of ratios of whole numbers in range, of the two constants, of names, sums,
products and powers and of functions of one argument that an expression can name. -/
inductive Term.Elementary : Term α → Prop
  | number {q : Rat} (top : q.num.natAbs < 2 ^ 1023) (bottom : q.den < 2 ^ 1023) :
      Elementary (number (.exact q))
  | euler : Elementary euler
  | pi : Elementary pi
  | symbol {name : String} (named : IsName name) : Elementary (symbol name)
  | sum {terms : List (Term α)} (some : terms ≠ []) (parts : ∀ t ∈ terms, Elementary t) :
      Elementary (sum terms)
  | product {factors : List (Term α)} (some : factors ≠ []) (parts : ∀ t ∈ factors, Elementary t) :
      Elementary (product factors)
  | power {base exponent : Term α} (first : Elementary base) (second : Elementary exponent) :
      Elementary (power base exponent)
  | exponential {arg : Term α} (inner : Elementary arg) : Elementary (apply .exponential [arg])
  | named (f : NamedFunction) {arg : Term α} (inner : Elementary arg) :
      Elementary (apply (.named f) [arg])
  | free {name : String} {arg : Term α} (named : IsName name) (inner : Elementary arg) :
      Elementary (apply (.free name) [arg])

/-- Elementary terms are taken apart into elementary terms, sums and products into some. -/
structure Parting.KeepsElementary (parting : Parting α) : Prop where
  terms {terms : List (Term α)} : (sum terms).Elementary →
    parting.orderedTerms terms ≠ [] ∧ ∀ part ∈ parting.orderedTerms terms, part.Elementary
  factors {factors : List (Term α)} : (product factors).Elementary →
    parting.orderedFactors factors ≠ [] ∧ ∀ part ∈ parting.orderedFactors factors, part.Elementary
  rest {factors : List (Term α)} : (product factors).Elementary →
    (parting.coefficient factors).2.Elementary
  power {base exponent : Term α} : (power base exponent).Elementary →
    (parting.baseExponent base exponent).1.Elementary ∧
      (parting.baseExponent base exponent).2.Elementary

namespace Expr

/-- The grammar can produce the tree: it is printable and its numbers are natural. -/
def Producible (tree : Expr α) : Prop := tree.Printable ∧ tree.NumbersHold IsCount

variable {op : BinaryOp} {lhs rhs tree : Expr α}

theorem producible_number {a : α} (count : IsCount a) : (num a).Producible := by
  obtain ⟨n, natural⟩ := count.2.2
  exact ⟨Option.isSome_iff_exists.2 ⟨n, natural⟩, count⟩

theorem producible_variable {name : String} (named : IsName name) :
    (var name : Expr α).Producible :=
  ⟨named, trivial⟩

theorem producible_binary (known : op.isKnown = true) (left : lhs.Producible)
    (right : rhs.Producible) : (binary op lhs rhs).Producible :=
  ⟨⟨known, left.1, right.1⟩, left.2, right.2⟩

theorem producible_opposite (inner : tree.Producible) : (signed .minus tree).Producible :=
  ⟨⟨rfl, inner.1⟩, inner.2⟩

theorem producible_call {name : String} (named : IsName name) (inner : tree.Producible) :
    (call name tree).Producible :=
  ⟨⟨named, inner.1⟩, inner.2⟩

theorem Producible.not_missing (producible : tree.Producible) : tree.isMissing = false := by
  cases tree with
  | missing => exact absurd producible.1 id
  | _ => rfl

theorem producible_joined (known : op.isKnown = true) {trees : List (Expr α)} (some : trees ≠ [])
    (each : ∀ tree ∈ trees, tree.Producible) : (joinLeft op trees).Producible := by
  cases trees with
  | nil => exact absurd rfl some
  | cons first rest =>
      obtain ⟨start, following⟩ := List.forall_mem_cons.1 each
      rw [joinLeft]
      clear some each
      induction rest generalizing first with
      | nil => exact start
      | cons next rest induction =>
          obtain ⟨second, others⟩ := List.forall_mem_cons.1 following
          exact induction _ (producible_binary known start second) others

theorem desugar_of_counts (numbers : WholeNumbers α) (counts : tree.NumbersHold IsCount) :
    tree.desugar = tree := by
  induction tree with
  | missing | var name => rfl
  | num value =>
      obtain ⟨n, natural⟩ := counts.2.2
      rw [desugar, numbers.not_negative natural]
      rfl
  | binary op lhs rhs left right => rw [desugar, left counts.1, right counts.2]
  | signed op operand inner | marked op operand inner | call name operand inner =>
      rw [desugar, inner counts]

end Expr

namespace Term

variable (counts : ∀ n < 2 ^ 1023, IsCount (ofNat n : α))

include counts

theorem make_whole_ok {n : Nat} (small : n < 2 ^ 1023) :
    Expr.makeWhole n = .ok (.num (ofNat n : α)) := by
  rw [Expr.makeWhole, (counts n small).1]
  rfl

theorem division_converts {top bottom : Nat} (above : top < 2 ^ 1023) (below : bottom < 2 ^ 1023) :
    ∃ size : Expr α, divisionExpr top bottom = .ok size ∧ size.Producible := by
  have upper := Expr.producible_number (counts top above)
  have lower := Expr.producible_number (counts bottom below)
  rw [divisionExpr]
  split
  · exact ⟨_, rfl, upper⟩
  · rw [make_whole_ok counts above, ok_bind, make_whole_ok counts below]
    exact ⟨_, rfl, Expr.producible_binary rfl upper lower⟩

theorem ratio_converts {q : Rat} (top : q.num.natAbs < 2 ^ 1023) (bottom : q.den < 2 ^ 1023) :
    ∃ tree : Expr α, ratioExpr q = .ok tree ∧ tree.Producible := by
  obtain ⟨size, done, producible⟩ := division_converts counts top bottom
  rw [ratioExpr, done, ok_bind]
  refine ⟨_, rfl, ?_⟩
  split
  · exact Expr.producible_opposite producible
  · exact producible

end Term

namespace Parting

variable {parting : Parting α} {t : Term α}

theorem to_expr_product {factors : List (Term α)} (elementary : (product factors).Elementary) :
    parting.toExpr (product factors) =
      if (parting.coefficient factors).1.isExactly (-1) = true then
        (do return .signed .minus (← parting.toExpr (parting.coefficient factors).2))
      else do
        return joinLeft .mul (← (parting.orderedFactors factors).mapM parting.toExpr) := by
  rw [toExpr]
  rintro q rfl
  cases elementary with
  | product _ parts => cases parts infinity (by simp)

theorem join_converts {op : BinaryOp} (known : op.isKnown = true) {parts : List (Term α)}
    (some : parts ≠ [])
    (each : ∀ part ∈ parts, ∃ tree, parting.toExpr part = .ok tree ∧ tree.Producible) :
    ∃ tree, (do return joinLeft op (← parts.mapM parting.toExpr)) = Except.ok (ε := Fault) tree ∧
      tree.Producible := by
  obtain ⟨trees, done, length, producible⟩ := map_m_ok each
  have found : trees ≠ [] := by
    rw [← List.length_pos_iff, length]
    exact List.length_pos_iff.2 some
  exact ⟨_, by rw [done]; rfl, Expr.producible_joined known found producible⟩

theorem call_converts {name : String} (named : IsName name) {arg : Term α}
    (inner : ∃ tree, parting.toExpr arg = .ok tree ∧ tree.Producible) :
    ∃ tree, (do Expr.makeCall name (← parting.toExpr arg)) = Except.ok (ε := Fault) tree ∧
      tree.Producible := by
  obtain ⟨tree, done, producible⟩ := inner
  refine ⟨.call name tree, ?_, Expr.producible_call named producible⟩
  rw [done, ok_bind, Expr.makeCall, if_neg named.ne_empty, if_neg (by simp [producible.not_missing])]
  rfl

/-- Every elementary term has an expression, and the grammar can produce it. -/
theorem elementary_converts (counts : ∀ n < 2 ^ 1023, IsCount (ofNat n : α))
    (keeps : parting.KeepsElementary) (elementary : t.Elementary) :
    ∃ tree, parting.toExpr t = .ok tree ∧ tree.Producible := by
  -- the induction is on the measure of the parting, whose parts need not be parts of the term
  induction size : parting.size t using Nat.strongRecOn generalizing t with
  | ind bound smaller =>
      subst size
      replace smaller {part : Term α} (less : parting.size part < parting.size t)
          (elementary : part.Elementary) := smaller _ less elementary rfl
      cases elementary with
      | number top bottom =>
          rw [toExpr, quantityExpr]
          exact ratio_converts counts top bottom
      | euler =>
          rw [toExpr]
          exact ⟨_, rfl, Expr.producible_variable (by decide)⟩
      | pi =>
          rw [toExpr]
          exact ⟨_, rfl, Expr.producible_variable (by decide)⟩
      | symbol named =>
          rw [toExpr, Expr.makeVariable, if_neg named.ne_empty]
          exact ⟨_, rfl, Expr.producible_variable named⟩
      | sum some parts =>
          obtain ⟨found, kept⟩ := keeps.terms (.sum some parts)
          rw [toExpr]
          exact join_converts rfl found fun part member =>
            smaller (parting.term_smaller member) (kept part member)
      | product some parts =>
          have elementary : (product _).Elementary := .product some parts
          rw [to_expr_product elementary]
          split
          · rename_i opposite
            obtain ⟨tree, done, producible⟩ :=
              smaller (parting.rest_smaller opposite) (keeps.rest elementary)
            exact ⟨_, by rw [done]; rfl, Expr.producible_opposite producible⟩
          · obtain ⟨found, kept⟩ := keeps.factors elementary
            exact join_converts rfl found fun part member =>
              smaller (parting.factor_smaller member) (kept part member)
      | @power base exponent first second =>
          obtain ⟨keptBase, keptExponent⟩ := keeps.power (.power first second)
          obtain ⟨lhs, doneLeft, left⟩ := smaller (parting.base_smaller base exponent) keptBase
          obtain ⟨rhs, doneRight, right⟩ :=
            smaller (parting.exponent_smaller base exponent) keptExponent
          rw [toExpr, doneLeft, ok_bind, doneRight]
          exact ⟨_, rfl, Expr.producible_binary rfl left right⟩
      | exponential inner =>
          obtain ⟨tree, done, producible⟩ :=
            smaller (parting.argument_smaller _ List.mem_cons_self) inner
          rw [toExpr, done]
          exact ⟨_, rfl,
            Expr.producible_binary rfl (Expr.producible_variable (by decide)) producible⟩
      | named f inner =>
          have named : IsName f.name := by cases f <;> decide
          rw [toExpr]
          exact call_converts named (smaller (parting.argument_smaller _ List.mem_cons_self) inner)
      | free named inner =>
          rw [toExpr]
          exact call_converts named (smaller (parting.argument_smaller _ List.mem_cons_self) inner)

end Parting

/-! Terms in their written order. -/

section

variable {ts : List (Term α)}

omit [Scalar α] in
theorem elementary_whole {n : Int} (small : n.natAbs < 2 ^ 1023) : (ofInt n : Term α).Elementary :=
  .number small (show 1 < 2 ^ 1023 by decide +kernel)

omit [Scalar α] in
theorem elementary_product_of (parts : ∀ t ∈ ts, t.Elementary) : (productOf ts).Elementary := by
  match ts, parts with
  | [], _ => exact elementary_whole (by decide +kernel)
  | [t], parts => exact parts t List.mem_cons_self
  | first :: second :: rest, parts => exact .product (List.cons_ne_nil _ _) parts

omit [Scalar α] in
theorem elementary_rest (elementary : (product ts).Elementary) :
    (product ts).coefficient.2.Elementary := by
  unfold coefficient
  split
  · rename_i q rest same
    cases same
    cases elementary with
    | product _ parts => exact elementary_product_of (List.forall_mem_cons.1 parts).2
  · exact elementary

theorem elementary_signed_factors (elementary : (product ts).Elementary) :
    signedFactors ts ≠ [] ∧ ∀ t ∈ signedFactors ts, t.Elementary := by
  cases elementary with
  | product some parts =>
      unfold signedFactors
      split
      · split
        · obtain ⟨front, behind⟩ := List.forall_mem_cons.1 parts
          refine ⟨List.cons_ne_nil _ _, List.forall_mem_cons.2
            ⟨elementary_whole (by decide +kernel), List.forall_mem_cons.2 ⟨?_, behind⟩⟩⟩
          cases front with
          | @number q top bottom =>
              have sameTop : (-q).num.natAbs = q.num.natAbs := by rw [Rat.neg_num, Int.natAbs_neg]
              exact .number (lt_of_eq_of_lt sameTop top) (lt_of_eq_of_lt (Rat.neg_den q) bottom)
        · exact ⟨List.cons_ne_nil _ _, parts⟩
      · exact ⟨some, parts⟩

theorem Parting.written_keeps_elementary : (Parting.written : Parting α).KeepsElementary where
  terms elementary := by
    cases elementary with
    | sum some parts => exact ⟨some, parts⟩
  factors := elementary_signed_factors
  rest := elementary_rest
  power elementary := by
    cases elementary with
    | power first second => exact ⟨first, second⟩

end

/-! Trees over doubles. -/

theorem Decimal.count_of_nat {n : Nat} (small : n < 2 ^ 1023) : IsCount (ofNat n : Float) := by
  rcases of_nat_cases n with ⟨whole, integer⟩ | ⟨wide, -⟩
  · exact ⟨finite_of_whole integer, non_negative_of_whole integer, whole, integer⟩
  · have nonzero : n ≠ 0 := by
      rintro rfl
      exact absurd wide (by decide)
    have narrow {bits : Nat} (below : n < 2 ^ bits) : n.log2 < bits := (Nat.log2_lt nonzero).2 below
    exact absurd wide (Nat.not_le_of_lt (narrow small))

/-- However an elementary term is taken apart, it has an expression with natural numbers only,
and the text of that expression parses to the expression itself unless it is too deep. -/
theorem expression_of_elementary {parting : Parting Float} (keeps : parting.KeepsElementary)
    {t : Term Float} (elementary : t.Elementary) :
    ∃ tree, parting.toExpr t = .ok tree ∧ tree.Printable ∧ tree.NumbersHold IsCount ∧
      (tree.depth ≤ depthLimit → ∃ text again, tree.toInfix = .ok text ∧
        parse text = .ok again ∧ again.same tree = true) := by
  have numbers : WholeNumbers Float := Decimal.whole_numbers
  obtain ⟨tree, done, printable, counts⟩ :=
    parting.elementary_converts (fun _ small => Decimal.count_of_nat small) keeps elementary
  refine ⟨tree, done, printable, counts, fun shallow => ?_⟩
  have plain : tree.desugar = tree := Expr.desugar_of_counts numbers counts
  obtain ⟨text, written, -⟩ := infix_scans numbers printable freePriority
  obtain ⟨again, parsed, same⟩ := parse_written numbers printable (plain.symm ▸ shallow) written
  rw [plain] at same
  exact ⟨text, again, written, parsed, same⟩

/-- The term `-2/3 * x^f(y) + exp(-x)` is written with two signs and without a fraction. -/
theorem expression_of_elementary_of_sum :
    ∃ tree again : Expr Float,
      (sum [product [number (.exact (-2 / 3)), power (symbol "x") (apply (.free "f") [symbol "y"])],
        apply .exponential [product [ofInt (-1), symbol "x"]]]).toExpr = .ok tree ∧
      tree.toInfix = .ok "(-1)*(2/3)*x^f(y) + e^(-x)" ∧
      parse "(-1)*(2/3)*x^f(y) + e^(-x)" = .ok again ∧ again.same tree = true := by
  let t : Term Float :=
    sum [product [number (.exact (-2 / 3)), power (symbol "x") (apply (.free "f") [symbol "y"])],
      apply .exponential [product [ofInt (-1), symbol "x"]]]
  have x : (symbol "x" : Term Float).Elementary := .symbol (by decide)
  have y : (symbol "y" : Term Float).Elementary := .symbol (by decide)
  have fraction : (number (.exact (-2 / 3)) : Term Float).Elementary :=
    .number (by decide +kernel) (by decide +kernel)
  have minus : (ofInt (-1) : Term Float).Elementary := elementary_whole (by decide +kernel)
  have opposite : (product [ofInt (-1), symbol "x"] : Term Float).Elementary :=
    .product (List.cons_ne_nil _ _) (by simp [minus, x])
  have elementary : t.Elementary := by
    refine .sum (List.cons_ne_nil _ _) (List.forall_mem_cons.2 ⟨?_, ?_⟩)
    · have power : (power (symbol "x") (apply (.free "f") [symbol "y"]) : Term Float).Elementary :=
        .power x (.free (by decide) y)
      exact .product (List.cons_ne_nil _ _) (by simp [fraction, power])
    · exact List.forall_mem_singleton.2 (.exponential opposite)
  obtain ⟨tree, done, -, -, reads⟩ :=
    expression_of_elementary Parting.written_keeps_elementary elementary
  have deep : t.toExpr.toOption.map Expr.depth = some 5 := by decide +kernel
  have spelled : t.toExpr.toOption.bind (·.toInfix.toOption) = some "(-1)*(2/3)*x^f(y) + e^(-x)" := by
    decide +kernel
  rw [toExpr, done] at deep spelled
  have shallow : tree.depth ≤ depthLimit := le_of_eq_of_le (Option.some.inj deep) (by decide)
  obtain ⟨text, again, written, parsed, same⟩ := reads shallow
  obtain rfl : text = "(-1)*(2/3)*x^f(y) + e^(-x)" := by
    rw [Except.toOption, Option.bind_some, written] at spelled
    exact Option.some.inj spelled
  exact ⟨tree, again, done, written, parsed, same⟩

end Fluxion
