import Fluxion.Proofs.Simplify.Rewriting

/-!
A sweep node by node. The two passes of a sweep do to a node's children exactly what
a sweep over the children alone does, and after that a binary node folds or the rules
are tried once. Main statements: one equation for each kind of node, and that no
sweep over a built tree fails.
-/

namespace Fluxion.Simplify

open Outcome Fluxion.Expr

variable {α : Type} [Scalar α] {epsilon : α}

theorem sweep_parts {tree : Expr α} {pass : Pass α} (swept : sweep epsilon tree = .ok pass) :
    ∃ folded simplified, foldConstants tree = .ok folded ∧
      simplify epsilon folded.tree = .ok simplified ∧
        pass = ⟨simplified.tree, folded.changed || simplified.changed⟩ := by
  simp only [sweep, bind_eq_ok, pure_eq_ok] at swept
  obtain ⟨folded, doneFold, simplified, doneSimplify, rfl⟩ := swept
  exact ⟨folded, simplified, doneFold, doneSimplify, rfl⟩

theorem fold_known {op : BinaryOp} (known : op.isKnown = true) (a b : α) :
    ∃ value, op.fold a b = .ok value := by
  cases op with
  | other symbol => simp [BinaryOp.isKnown] at known
  | _ => exact ⟨_, rfl⟩

/-- A sweep over a binary node makes it a number, or else does to its operands what
sweeps over them do and then tries the rules. -/
theorem sweep_binary {op : BinaryOp} {lhs rhs : Expr α} {left right : Pass α}
    (built : (Expr.binary op lhs rhs).Built) (sweptLeft : sweep epsilon lhs = .ok left)
    (sweptRight : sweep epsilon rhs = .ok right) :
    (∃ value, sweep epsilon (.binary op lhs rhs) = .ok ⟨.num value, true⟩) ∨
      sweep epsilon (.binary op lhs rhs) =
        .ok (settle (reduceBinary epsilon op left.tree right.tree)
          (.binary op left.tree right.tree) (left.changed || right.changed)) := by
  obtain ⟨known, builtLeft, builtRight⟩ := (built_binary _ _ _).1 built
  obtain ⟨foldedLeft, simpleLeft, foldLeft, simplifyLeft, rfl⟩ := sweep_parts sweptLeft
  obtain ⟨foldedRight, simpleRight, foldRight, simplifyRight, rfl⟩ := sweep_parts sweptRight
  have presentLeft := ((fold_rewrites epsilon foldLeft).built builtLeft).not_missing
  have presentRight := ((fold_rewrites epsilon foldRight).built builtRight).not_missing
  have folds : foldConstants (.binary op lhs rhs) = foldNode op foldedLeft.tree foldedRight.tree
      (foldedLeft.changed || foldedRight.changed) := by
    simp [foldConstants, requireChild, builtLeft.not_missing, builtRight.not_missing, foldLeft,
      foldRight]
  obtain ⟨folded, node⟩ : ∃ folded, foldNode op foldedLeft.tree foldedRight.tree
      (foldedLeft.changed || foldedRight.changed) = .ok folded := by
    unfold foldNode
    split
    · rename_i a b _ _
      obtain ⟨value, same⟩ := fold_known known a b
      cases value <;> simp [same, pure, Except.pure]
    · simp [pure, Except.pure]
  rcases fold_node_cases node with ⟨a, b, value, -, -, -, rfl⟩ | rfl
  · left
    refine ⟨value, ?_⟩
    simp [sweep, folds, node, simplify]
  · right
    have simplifies : simplify epsilon (.binary op foldedLeft.tree foldedRight.tree) =
        .ok (settle (reduceBinary epsilon op simpleLeft.tree simpleRight.tree)
          (.binary op simpleLeft.tree simpleRight.tree)
          (simpleLeft.changed || simpleRight.changed)) := by
      simp [simplify, requireChild, presentLeft, presentRight, simplifyLeft, simplifyRight]
    rcases settle_cases (reduceBinary epsilon op simpleLeft.tree simpleRight.tree)
      (.binary op simpleLeft.tree simpleRight.tree)
      (simpleLeft.changed || simpleRight.changed) with ⟨none, same⟩ | ⟨reduct, some, same⟩
    · simp [sweep, folds, node, simplifies, none, settle, Bool.or_assoc, Bool.or_left_comm]
    · simp [sweep, folds, node, simplifies, some, settle]

/-- A sweep over two numbers makes them one, or tries the rules because they have no
result in range. -/
theorem sweep_numbers (epsilon : α) {op : BinaryOp} (known : op.isKnown = true) (a b : α) :
    (∃ value, sweep epsilon (.binary op (.num a) (.num b)) = .ok ⟨.num value, true⟩) ∨
      op.fold a b = .ok none ∧ sweep epsilon (.binary op (.num a) (.num b)) =
        .ok (settle (reduceBinary epsilon op (.num a) (.num b)) (.binary op (.num a) (.num b))
          false) := by
  obtain ⟨value, folds⟩ := fold_known known a b
  cases value with
  | some value =>
      left
      refine ⟨value, ?_⟩
      simp [sweep, foldConstants, requireChild, isMissing, foldNode, folds, simplify]
  | none =>
      right
      refine ⟨folds, ?_⟩
      cases reduced : reduceBinary epsilon op (.num a) (.num b) <;>
        simp [sweep, foldConstants, requireChild, isMissing, foldNode, folds, simplify, reduced,
          settle]

theorem sweep_signed {op : SignOp} {operand : Expr α} {inner : Pass α}
    (built : (Expr.signed op operand).Built) (swept : sweep epsilon operand = .ok inner) :
    sweep epsilon (.signed op operand) =
      .ok (settle (reduceSigned op inner.tree) (.signed op inner.tree) inner.changed) := by
  have builtOperand := ((built_signed _ _).1 built).2
  obtain ⟨folded, simplified, fold, simplifies, rfl⟩ := sweep_parts swept
  have present := ((fold_rewrites epsilon fold).built builtOperand).not_missing
  rcases settle_cases (reduceSigned op simplified.tree) (.signed op simplified.tree)
    simplified.changed with ⟨none, -⟩ | ⟨reduct, some, -⟩
  · simp [sweep, foldConstants, simplify, requireChild, builtOperand.not_missing, fold, present,
      simplifies, none, settle]
  · simp [sweep, foldConstants, simplify, requireChild, builtOperand.not_missing, fold, present,
      simplifies, some, settle]

theorem sweep_call {name : String} {arg : Expr α} {inner : Pass α}
    (built : (Expr.call name arg).Built) (swept : sweep epsilon arg = .ok inner) :
    sweep epsilon (.call name arg) =
      .ok (settle (reduceCall epsilon name inner.tree) (.call name inner.tree) inner.changed) := by
  have builtArg := ((built_call _ _).1 built).2
  obtain ⟨folded, simplified, fold, simplifies, rfl⟩ := sweep_parts swept
  have present := ((fold_rewrites epsilon fold).built builtArg).not_missing
  rcases settle_cases (reduceCall epsilon name simplified.tree) (.call name simplified.tree)
    simplified.changed with ⟨none, -⟩ | ⟨reduct, some, -⟩
  · simp [sweep, foldConstants, simplify, requireChild, builtArg.not_missing, fold, present,
      simplifies, none, settle]
  · simp [sweep, foldConstants, simplify, requireChild, builtArg.not_missing, fold, present,
      simplifies, some, settle]

theorem sweep_marked {op : MarkOp} {operand : Expr α} {inner : Pass α}
    (built : (Expr.marked op operand).Built) (swept : sweep epsilon operand = .ok inner) :
    sweep epsilon (.marked op operand) = .ok ⟨.marked op inner.tree, inner.changed⟩ := by
  have builtOperand := ((built_marked _ _).1 built).2
  obtain ⟨folded, simplified, fold, simplifies, rfl⟩ := sweep_parts swept
  have present := ((fold_rewrites epsilon fold).built builtOperand).not_missing
  simp [sweep, foldConstants, simplify, requireChild, builtOperand.not_missing, fold, present,
    simplifies]

theorem sweep_total (epsilon : α) {tree : Expr α} (built : tree.Built) :
    ∃ pass, sweep epsilon tree = .ok pass := by
  induction tree with
  | missing => exact absurd built built_missing
  | num value => exact ⟨_, rfl⟩
  | var name => exact ⟨_, rfl⟩
  | binary op lhs rhs left right =>
      obtain ⟨-, builtLeft, builtRight⟩ := (built_binary _ _ _).1 built
      obtain ⟨passLeft, sweptLeft⟩ := left builtLeft
      obtain ⟨passRight, sweptRight⟩ := right builtRight
      rcases sweep_binary built sweptLeft sweptRight with ⟨value, swept⟩ | swept
      · exact ⟨_, swept⟩
      · exact ⟨_, swept⟩
  | signed op operand inner =>
      obtain ⟨pass, swept⟩ := inner ((built_signed _ _).1 built).2
      exact ⟨_, sweep_signed built swept⟩
  | marked op operand inner =>
      obtain ⟨pass, swept⟩ := inner ((built_marked _ _).1 built).2
      exact ⟨_, sweep_marked built swept⟩
  | call name arg inner =>
      obtain ⟨pass, swept⟩ := inner ((built_call _ _).1 built).2
      exact ⟨_, sweep_call built swept⟩

end Fluxion.Simplify
