import Fluxion.Proofs.Simplify.Agreement

/-!
What one pass of folding does to a tree as a whole. Numbers joined by operators alone have a
value of their own, unless one of the operators has none; the largest parts with such a value
become numbers and nothing else changes. Main statement: folding does exactly this, reports
it, has nothing left to do a second time, and is not seen by evaluation.
-/

namespace Fluxion

open Outcome

variable {α : Type} [Scalar α]

namespace Expr

def closedValue? (tree : Expr α) : Option α :=
  if tree.Numeric then (tree.evaluateIn Bindings.none).toOption else none

def Foldable (tree : Expr α) : Prop :=
  tree.number? = none ∧ ∃ value, tree.closedValue? = some value

/-- The largest parts that have a value of their own, replaced by it. -/
def collapse (tree : Expr α) : Expr α :=
  match tree.closedValue? with
  | some value => num value
  | none =>
      match tree with
      | binary op lhs rhs => binary op lhs.collapse rhs.collapse
      | signed op operand => signed op operand.collapse
      | marked op operand => marked op operand.collapse
      | call name arg => call name arg.collapse
      | leaf => leaf

theorem Numeric.evaluate_in {tree : Expr α} (numeric : tree.Numeric) (bindings : Bindings α) :
    tree.evaluateIn bindings = tree.evaluateIn Bindings.none := by
  induction tree with
  | missing | var name | signed op operand | marked op operand | call name arg => cases numeric
  | num value => rfl
  | binary op lhs rhs left right => rw [evaluateIn, evaluateIn, left numeric.1, right numeric.2]

theorem closed_value_some {tree : Expr α} {value : α} :
    tree.closedValue? = some value ↔
      tree.Numeric ∧ ∀ bindings, tree.evaluateIn bindings = .ok value := by
  unfold closedValue?
  split
  · rename_i numeric
    rw [to_option_eq_some]
    exact ⟨fun evaluates => ⟨numeric, fun bindings => numeric.evaluate_in bindings ▸ evaluates⟩,
      fun evaluates => evaluates.2 _⟩
  · rename_i several
    exact ⟨nofun, fun closed => absurd closed.1 several⟩

@[simp] theorem closed_value_num (value : α) : (num value).closedValue? = some value := rfl

theorem closed_value_binary {op : BinaryOp} {lhs rhs : Expr α} {value : α} :
    (binary op lhs rhs).closedValue? = some value ↔
      ∃ a b, lhs.closedValue? = some a ∧ rhs.closedValue? = some b ∧
        op.fold a b = .ok (some value) := by
  simp only [closed_value_some, Reading.evaluate_binary]
  constructor
  · rintro ⟨⟨left, right⟩, evaluates⟩
    obtain ⟨a, b, valueLeft, valueRight, folds⟩ := evaluates Bindings.none
    exact ⟨a, b, ⟨left, fun bindings => left.evaluate_in bindings ▸ valueLeft⟩,
      ⟨right, fun bindings => right.evaluate_in bindings ▸ valueRight⟩, folds⟩
  · rintro ⟨a, b, ⟨left, valueLeft⟩, ⟨right, valueRight⟩, folds⟩
    exact ⟨⟨left, right⟩, fun bindings => ⟨a, b, valueLeft bindings, valueRight bindings, folds⟩⟩

theorem collapse_of_value {tree : Expr α} {value : α} (closed : tree.closedValue? = some value) :
    tree.collapse = num value := by
  unfold collapse
  rw [closed]

theorem collapse_binary {op : BinaryOp} {lhs rhs : Expr α}
    (valueless : (binary op lhs rhs).closedValue? = none) :
    (binary op lhs rhs).collapse = binary op lhs.collapse rhs.collapse := by
  rw [collapse, valueless]

@[simp] theorem collapse_signed (op : SignOp) (operand : Expr α) :
    (signed op operand).collapse = signed op operand.collapse := rfl

@[simp] theorem collapse_marked (op : MarkOp) (operand : Expr α) :
    (marked op operand).collapse = marked op operand.collapse := rfl

@[simp] theorem collapse_call (name : String) (arg : Expr α) :
    (call name arg).collapse = call name arg.collapse := rfl

theorem collapse_eq_num {tree : Expr α} {value : α} :
    tree.collapse = num value ↔ tree.closedValue? = some value := by
  refine ⟨fun collapsed => ?_, collapse_of_value⟩
  cases tree with
  | num other => exact congrArg closedValue? collapsed
  | binary op lhs rhs =>
      cases closed : (binary op lhs rhs).closedValue? with
      | some other =>
          rw [collapse_of_value closed] at collapsed
          rw [Expr.num.inj collapsed]
      | none =>
          rw [collapse_binary closed] at collapsed
          cases collapsed
  | _ => cases collapsed

theorem Valid.collapse {tree : Expr α} (valid : tree.Valid) : tree.collapse.Valid := by
  induction tree with
  | missing => exact valid.elim
  | num | var => exact valid
  | binary op lhs rhs left right =>
      cases closed : (binary op lhs rhs).closedValue? with
      | some value =>
          rw [collapse_of_value closed]
          trivial
      | none =>
          rw [collapse_binary closed]
          exact ⟨valid.1, left valid.2.1, right valid.2.2⟩
  | signed op operand inner | marked op operand inner => exact ⟨valid.1, inner valid.2⟩
  | call name arg inner => exact inner valid

/-- Evaluation does not tell a tree from the collapsed one, in its faults neither. -/
theorem evaluate_collapse (tree : Expr α) (bindings : Bindings α) :
    tree.collapse.evaluateIn bindings = tree.evaluateIn bindings := by
  induction tree with
  | missing | num | var => rfl
  | binary op lhs rhs left right =>
      cases closed : (binary op lhs rhs).closedValue? with
      | some value =>
          rw [collapse_of_value closed, (closed_value_some.1 closed).2 bindings]
          rfl
      | none => rw [collapse_binary closed, evaluateIn, evaluateIn, left, right]
  | signed op operand inner | call name operand inner =>
      simp only [collapse_signed, collapse_call, evaluateIn, inner]
  | marked op operand inner => rfl

end Expr

open Fluxion.Expr

namespace Simplify

theorem fold_node_collapse {op : BinaryOp} (known : op.isKnown = true) (lhs rhs : Expr α)
    (changed : Bool) :
    foldNode op lhs.collapse rhs.collapse changed =
      .ok ⟨(Expr.binary op lhs rhs).collapse,
        changed || (Expr.binary op lhs rhs).closedValue?.isSome⟩ := by
  obtain ⟨pass, done, -⟩ := fold_node_turns known lhs.collapse rhs.collapse changed
  cases closed : (Expr.binary op lhs rhs).closedValue? with
  | some value =>
      obtain ⟨a, b, left, right, folds⟩ := closed_value_binary.1 closed
      rw [collapse_of_value left, collapse_of_value right, collapse_of_value closed]
      simp [foldNode, folds]
  | none =>
      rw [collapse_binary closed, done]
      rcases fold_node_cases done with ⟨a, b, value, left, right, folds, -⟩ | rfl
      · have valued := closed_value_binary.2
          ⟨a, b, collapse_eq_num.1 left, collapse_eq_num.1 right, folds⟩
        rw [closed] at valued
        cases valued
      · rw [Option.isSome_none, Bool.or_false]

theorem fold_collapses {tree : Expr α} (valid : tree.Valid) :
    ∃ changed, foldConstants tree = .ok ⟨tree.collapse, changed⟩ := by
  induction tree with
  | missing => exact valid.elim
  | num | var => exact ⟨_, rfl⟩
  | binary op lhs rhs left right =>
      obtain ⟨known, validLeft, validRight⟩ := valid
      obtain ⟨_, doneLeft⟩ := left validLeft
      obtain ⟨_, doneRight⟩ := right validRight
      have node := fold_node_collapse known lhs rhs
      exact ⟨_, by simp [foldConstants, requireChild, validLeft.present, validRight.present,
        doneLeft, doneRight, node]; rfl⟩
  | signed op operand inner | marked op operand inner =>
      obtain ⟨_, done⟩ := inner valid.2
      exact ⟨_, by simp [foldConstants, requireChild, valid.2.present, done]; rfl⟩
  | call name arg inner =>
      have validArg : arg.Valid := valid
      obtain ⟨_, done⟩ := inner validArg
      exact ⟨_, by simp [foldConstants, requireChild, validArg.present, done]; rfl⟩

/-- The nodes that folding rewrites are those that have a value and are no numbers. -/
theorem folds_iff_foldable {node : Expr α} (valid : node.Valid) :
    (∃ found below reduct, Found foldConstants node found below ∧ FoldRule found reduct) ↔
      node.Foldable := by
  constructor
  · rintro ⟨found, below, reduct, reached, rule⟩
    cases reached with
    | @binary op lhs rhs left right visitedLeft visitedRight =>
        obtain ⟨left, changed⟩ := left
        obtain ⟨right, changed'⟩ := right
        cases rule with
        | folds defined =>
            obtain ⟨_, doneLeft⟩ := fold_collapses valid.2.1
            obtain ⟨_, doneRight⟩ := fold_collapses valid.2.2
            have collapsedLeft := congrArg Pass.tree (Except.ok.inj (doneLeft.symm.trans visitedLeft))
            have collapsedRight :=
              congrArg Pass.tree (Except.ok.inj (doneRight.symm.trans visitedRight))
            exact ⟨rfl, _, closed_value_binary.2 ⟨_, _, collapse_eq_num.1 collapsedLeft,
              collapse_eq_num.1 collapsedRight, defined⟩⟩
    | _ => cases rule
  · rintro ⟨several, value, closed⟩
    cases node with
    | binary op lhs rhs =>
        obtain ⟨a, b, left, right, folds⟩ := closed_value_binary.1 closed
        obtain ⟨_, doneLeft⟩ := fold_collapses valid.2.1
        obtain ⟨_, doneRight⟩ := fold_collapses valid.2.2
        rw [collapse_of_value left] at doneLeft
        rw [collapse_of_value right] at doneRight
        exact ⟨_, _, _, .binary doneLeft doneRight, .folds folds⟩
    | num other => cases several
    | _ => exact absurd (closed_value_some.1 closed).1 id

theorem fold_collapsed {tree : Expr α} (valid : tree.Valid) :
    foldConstants tree.collapse = .ok ⟨tree.collapse, false⟩ := by
  induction tree with
  | missing => exact valid.elim
  | num | var => rfl
  | binary op lhs rhs left right =>
      obtain ⟨known, validLeft, validRight⟩ := valid
      cases closed : (Expr.binary op lhs rhs).closedValue? with
      | some value =>
          rw [collapse_of_value closed]
          rfl
      | none =>
          have node := fold_node_collapse known lhs rhs false
          rw [closed, collapse_binary closed] at node
          rw [collapse_binary closed]
          simp [foldConstants, requireChild, validLeft.collapse.present,
            validRight.collapse.present, left validLeft, right validRight, node]
  | signed op operand inner | marked op operand inner =>
      simp [foldConstants, requireChild, valid.2.collapse.present, inner valid.2]
  | call name arg inner =>
      have validArg : arg.Valid := valid
      simp [foldConstants, requireChild, validArg.collapse.present, inner validArg]

/-- Folding replaces the largest parts that have a value by it and changes nothing else, it
reports a change exactly if there is such a part, and a second folding changes nothing. The
result evaluates as the tree does; numbers joined by operators are optimized to their value. -/
theorem folding_complete {tree : Expr α} (valid : tree.Valid) :
    (∃ changed, foldConstants tree = .ok ⟨tree.collapse, changed⟩ ∧
      (changed = true ↔ ∃ node : Expr α, node.Within tree ∧ node.Foldable)) ∧
    foldConstants tree.collapse = .ok ⟨tree.collapse, false⟩ ∧
    (∀ bindings, tree.collapse.evaluateIn bindings = tree.evaluateIn bindings) ∧
    ∀ bindings w, tree.Numeric → tree.evaluateIn bindings = .ok w →
      tree.optimize = .ok (.num w) := by
  refine ⟨?_, fold_collapsed valid, tree.evaluate_collapse, ?_⟩
  · obtain ⟨changed, done⟩ := fold_collapses valid
    obtain ⟨pass, done', faithful⟩ := fold_applies.faithful valid
    cases done.symm.trans done'
    refine ⟨changed, done, faithful.reports.trans (exists_congr fun node => ?_)⟩
    constructor
    · rintro ⟨found, below, reduct, within, folds⟩
      exact ⟨within, (folds_iff_foldable (within.valid valid)).1 ⟨found, below, reduct, folds⟩⟩
    · rintro ⟨within, foldable⟩
      obtain ⟨found, below, reduct, folds⟩ := (folds_iff_foldable (within.valid valid)).2 foldable
      exact ⟨found, below, reduct, within, folds⟩
  · intro bindings w numeric evaluates
    obtain ⟨changed, folded⟩ := fold_of_value numeric evaluates
    obtain ⟨sweeps, done⟩ : ∃ sweeps, run Scalar.tolerance tree = .ok ⟨.num w, sweeps⟩ :=
      run_of_fold folded
    simp [Expr.optimize, done]

/-- In `(1+2)*x - f(6/4)/(1/0)` two parts have a value and one has none. -/
theorem folding_complete_of_difference :
    ∃ tree : Expr Float, parse "(1+2)*x-f(6/4)/(1/0)" = .ok tree ∧
      tree.collapse.toInfix = .ok "3*x - f(1.5)/(1/0)" ∧
      foldConstants tree = .ok ⟨tree.collapse, true⟩ ∧
      foldConstants tree.collapse = .ok ⟨tree.collapse, false⟩ := by
  have answers : ((do
      let tree : Expr Float ← parse "(1+2)*x-f(6/4)/(1/0)"
      let pass ← foldConstants tree
      let text ← tree.collapse.toInfix
      return (decide tree.Valid, pass.changed, text)) :
        Except Fault (Bool × Bool × String)).toOption =
      some (true, true, "3*x - f(1.5)/(1/0)") := by
    decide +kernel
  simp only [to_option_eq_some, bind_eq_ok, pure_eq_ok, Prod.mk.injEq] at answers
  obtain ⟨tree, parsed, pass, folded, text, written, valid, changed, rfl⟩ := answers
  obtain ⟨⟨changed', done, -⟩, again, -⟩ := folding_complete (of_decide_eq_true valid)
  cases folded.symm.trans done
  cases changed
  exact ⟨tree, parsed, written, done, again⟩

end Simplify

end Fluxion
