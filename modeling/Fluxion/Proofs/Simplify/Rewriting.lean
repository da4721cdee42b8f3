import Fluxion.Proofs.Expr.Built
import Fluxion.Proofs.Expr.Height
import Fluxion.Proofs.Simplify.Rule
import Fluxion.Simplify.Fixpoint

/-!
What optimization can do to a tree. Folding, simplification, a sweep and a whole
run are all sequences of single rewrites somewhere in the tree, so a property that
each rewrite keeps is kept by all of them. That every pass is such a sequence is
proved here once; no later proof opens the passes for it again.
-/

namespace Fluxion.Simplify

open Outcome

variable {α : Type}

@[simp] theorem require_child_ok {slot kind : String} {child : Expr α} {done : Unit} :
    requireChild slot kind child = .ok done ↔ child.isMissing = false := by
  unfold requireChild
  cases child.isMissing <;> simp

theorem settle_cases (reduced : Option (Expr α)) (node : Expr α) (changed : Bool) :
    (reduced = none ∧ settle reduced node changed = ⟨node, changed⟩) ∨
      ∃ tree, reduced = some tree ∧ settle reduced node changed = ⟨tree, true⟩ := by
  cases reduced with
  | none => exact .inl ⟨rfl, rfl⟩
  | some tree => exact .inr ⟨tree, rfl, rfl⟩

variable [Scalar α]

/-- Some rewrites, one after the other, at any places of a tree. -/
inductive Rewrites (epsilon : α) : Expr α → Expr α → Prop
  | refl (tree : Expr α) : Rewrites epsilon tree tree
  | trans {first second third : Expr α} (before : Rewrites epsilon first second)
      (after : Rewrites epsilon second third) : Rewrites epsilon first third
  | binary (op : BinaryOp) {lhs lhs' rhs rhs' : Expr α} (left : Rewrites epsilon lhs lhs')
      (right : Rewrites epsilon rhs rhs') :
      Rewrites epsilon (.binary op lhs rhs) (.binary op lhs' rhs')
  | signed (op : SignOp) {operand operand' : Expr α} (inner : Rewrites epsilon operand operand') :
      Rewrites epsilon (.signed op operand) (.signed op operand')
  | marked (op : MarkOp) {operand operand' : Expr α} (inner : Rewrites epsilon operand operand') :
      Rewrites epsilon (.marked op operand) (.marked op operand')
  | call (name : String) {arg arg' : Expr α} (inner : Rewrites epsilon arg arg') :
      Rewrites epsilon (.call name arg) (.call name arg')
  | folded {op : BinaryOp} {a b value : α} (folds : op.fold a b = .ok (some value)) :
      Rewrites epsilon (.binary op (.num a) (.num b)) (.num value)
  | binaryRule {op : BinaryOp} {lhs rhs tree : Expr α} (rule : BinaryRule epsilon op lhs rhs tree) :
      Rewrites epsilon (.binary op lhs rhs) tree
  | signRule {op : SignOp} {operand tree : Expr α} (rule : SignRule op operand tree) :
      Rewrites epsilon (.signed op operand) tree
  | callRule {name : String} {arg tree : Expr α} (rule : CallRule epsilon name arg tree) :
      Rewrites epsilon (.call name arg) tree

theorem Rewrites.of_number {epsilon a : α} {tree : Expr α} (rewrites : Rewrites epsilon (.num a) tree) :
    tree = .num a := by
  generalize same : Expr.num a = source at rewrites
  induction rewrites with
  | refl tree => rfl
  | trans before after first second =>
      have between := first same
      exact (second (same.trans between.symm)).trans between
  | _ => cases same

/-- A binary node between two numbers becomes the number that it folds to; any
other node is left as it is. -/
theorem fold_node_cases {op : BinaryOp} {lhs rhs : Expr α} {changed : Bool} {pass : Pass α}
    (done : foldNode op lhs rhs changed = .ok pass) :
    (∃ a b value, lhs = .num a ∧ rhs = .num b ∧ op.fold a b = .ok (some value) ∧
      pass = ⟨.num value, true⟩) ∨ pass = ⟨.binary op lhs rhs, changed⟩ := by
  unfold foldNode at done
  split at done
  · rename_i a b
    obtain ⟨value, folds, done⟩ := bind_eq_ok.1 done
    cases value with
    | none => exact .inr (pure_eq_ok.1 done).symm
    | some value => exact .inl ⟨a, b, value, rfl, rfl, folds, (pure_eq_ok.1 done).symm⟩
  · exact .inr (pure_eq_ok.1 done).symm

theorem fold_rewrites (epsilon : α) {tree : Expr α} {pass : Pass α}
    (done : foldConstants tree = .ok pass) : Rewrites epsilon tree pass.tree := by
  induction tree generalizing pass with
  | missing | num _ | var _ =>
      cases done
      exact .refl _
  | binary op lhs rhs left right =>
      simp only [foldConstants, bind_eq_ok] at done
      obtain ⟨_, _, passLeft, doneLeft, _, _, passRight, doneRight, node⟩ := done
      have children := Rewrites.binary op (left doneLeft) (right doneRight)
      rcases fold_node_cases node with ⟨a, b, value, isLeft, isRight, folds, rfl⟩ | rfl
      · rw [isLeft, isRight] at children
        exact children.trans (.folded folds)
      · exact children
  | signed op operand inner =>
      simp only [foldConstants, bind_eq_ok, pure_eq_ok] at done
      obtain ⟨_, _, passInner, doneInner, rfl⟩ := done
      exact .signed op (inner doneInner)
  | marked op operand inner =>
      simp only [foldConstants, bind_eq_ok, pure_eq_ok] at done
      obtain ⟨_, _, passInner, doneInner, rfl⟩ := done
      exact .marked op (inner doneInner)
  | call name arg inner =>
      simp only [foldConstants, bind_eq_ok, pure_eq_ok] at done
      obtain ⟨_, _, passInner, doneInner, rfl⟩ := done
      exact .call name (inner doneInner)

theorem simplify_rewrites {epsilon : α} {tree : Expr α} {pass : Pass α}
    (done : simplify epsilon tree = .ok pass) : Rewrites epsilon tree pass.tree := by
  induction tree generalizing pass with
  | missing | num _ | var _ =>
      cases done
      exact .refl _
  | binary op lhs rhs left right =>
      simp only [simplify, bind_eq_ok, pure_eq_ok] at done
      obtain ⟨_, _, passLeft, doneLeft, _, _, passRight, doneRight, rfl⟩ := done
      have children := Rewrites.binary op (left doneLeft) (right doneRight)
      rcases settle_cases (reduceBinary epsilon op passLeft.tree passRight.tree)
        (.binary op passLeft.tree passRight.tree) (passLeft.changed || passRight.changed) with
        ⟨-, same⟩ | ⟨reduct, reduces, same⟩
      · rw [same]
        exact children
      · rw [same]
        exact children.trans (.binaryRule (reduce_binary_rule reduces))
  | signed op operand inner =>
      simp only [simplify, bind_eq_ok, pure_eq_ok] at done
      obtain ⟨_, _, passInner, doneInner, rfl⟩ := done
      have child := Rewrites.signed op (inner doneInner)
      rcases settle_cases (reduceSigned op passInner.tree) (.signed op passInner.tree)
        passInner.changed with ⟨-, same⟩ | ⟨reduct, reduces, same⟩
      · rw [same]
        exact child
      · rw [same]
        exact child.trans (.signRule (reduce_signed_rule reduces))
  | marked op operand inner =>
      simp only [simplify, bind_eq_ok, pure_eq_ok] at done
      obtain ⟨_, _, passInner, doneInner, rfl⟩ := done
      exact .marked op (inner doneInner)
  | call name arg inner =>
      simp only [simplify, bind_eq_ok, pure_eq_ok] at done
      obtain ⟨_, _, passInner, doneInner, rfl⟩ := done
      have child := Rewrites.call name (inner doneInner)
      rcases settle_cases (reduceCall epsilon name passInner.tree) (.call name passInner.tree)
        passInner.changed with ⟨-, same⟩ | ⟨reduct, reduces, same⟩
      · rw [same]
        exact child
      · rw [same]
        exact child.trans (.callRule (reduce_call_rule reduces))

theorem sweep_rewrites {epsilon : α} {tree : Expr α} {pass : Pass α}
    (done : sweep epsilon tree = .ok pass) : Rewrites epsilon tree pass.tree := by
  simp only [sweep, bind_eq_ok, pure_eq_ok] at done
  obtain ⟨folded, doneFold, simplified, doneSimplify, rfl⟩ := done
  have simplifies := simplify_rewrites doneSimplify
  exact (fold_rewrites epsilon doneFold).trans simplifies

theorem sweeps_rewrite {epsilon : α} {left count : Nat} {tree : Expr α} {result : Optimized α}
    (done : sweepsFrom epsilon left count tree = .ok result) :
    Rewrites epsilon tree result.tree := by
  induction left generalizing count tree with
  | zero => simp [sweepsFrom] at done
  | succ left induction =>
      simp only [sweepsFrom, bind_eq_ok] at done
      obtain ⟨pass, doneSweep, done⟩ := done
      have first := sweep_rewrites doneSweep
      split at done
      · exact first.trans (induction done)
      · rw [← pure_eq_ok.1 done]
        exact first

theorem Rewrites.built {epsilon : α} {tree tree' : Expr α} (rewrites : Rewrites epsilon tree tree')
    (built : tree.Built) : tree'.Built := by
  induction rewrites with
  | refl tree => exact built
  | trans before after first second => exact second (first built)
  | binary op left right first second =>
      rw [Expr.built_binary] at built ⊢
      exact ⟨built.1, first built.2.1, second built.2.2⟩
  | signed op inner induction =>
      rw [Expr.built_signed] at built ⊢
      exact ⟨built.1, induction built.2⟩
  | marked op inner induction =>
      rw [Expr.built_marked] at built ⊢
      exact ⟨built.1, induction built.2⟩
  | call name inner induction =>
      rw [Expr.built_call] at built ⊢
      exact ⟨built.1, induction built.2⟩
  | folded folds => exact Expr.built_num _
  | binaryRule rule => cases rule <;> simp_all [wholeNumber, BinaryOp.isKnown, SignOp.isKnown]
  | signRule rule => cases rule <;> simp_all [SignOp.isKnown]
  | callRule rule => cases rule <;> exact Expr.built_num _

theorem Rewrites.size_le {epsilon : α} {tree tree' : Expr α}
    (rewrites : Rewrites epsilon tree tree') : tree'.size ≤ tree.size := by
  induction rewrites with
  | refl tree => exact Nat.le_refl _
  | trans before after first second => exact Nat.le_trans second first
  | binary op left right first second =>
      simp only [Expr.size]
      omega
  | signed op inner induction | marked op inner induction | call name inner induction =>
      exact Nat.succ_le_succ induction
  | folded folds => simp [Expr.size]
  | @binaryRule op lhs rhs tree rule =>
      have left := Expr.size_positive lhs
      have right := Expr.size_positive rhs
      cases rule <;> simp only [Expr.size, wholeNumber] <;> omega
  | signRule rule => cases rule <;> simp only [Expr.size] <;> omega
  | callRule rule => cases rule <;> simp [Expr.size, wholeNumber]

theorem Rewrites.height_le {epsilon : α} {tree tree' : Expr α}
    (rewrites : Rewrites epsilon tree tree') : tree'.height ≤ tree.height := by
  induction rewrites with
  | refl tree => exact Nat.le_refl _
  | trans before after first second => exact Nat.le_trans second first
  | binary op left right first second =>
      simp only [Expr.height]
      omega
  | signed op inner induction | marked op inner induction | call name inner induction =>
      exact Nat.succ_le_succ induction
  | folded folds => simp [Expr.height]
  | @binaryRule op lhs rhs tree rule =>
      have left := Expr.height_positive lhs
      cases rule <;> simp only [Expr.height, wholeNumber] <;> omega
  | signRule rule => cases rule <;> simp only [Expr.height] <;> omega
  | callRule rule => cases rule <;> simp [Expr.height, wholeNumber]

theorem Rewrites.constant {epsilon : α} {v : String} {tree tree' : Expr α}
    (rewrites : Rewrites epsilon tree tree') (constant : tree.isConstant v = true) :
    tree'.isConstant v = true := by
  induction rewrites with
  | refl tree => exact constant
  | trans before after first second => exact second (first constant)
  | binary op left right first second =>
      simp only [Expr.isConstant, Bool.and_eq_true] at constant ⊢
      exact ⟨first constant.1, second constant.2⟩
  | signed op inner induction | marked op inner induction | call name inner induction =>
      exact induction constant
  | folded folds => rfl
  | binaryRule rule =>
      simp only [Expr.isConstant, Bool.and_eq_true] at constant
      cases rule <;> simp_all [wholeNumber, Expr.isConstant]
  | signRule rule => cases rule <;> exact constant
  | callRule rule => cases rule <;> rfl

theorem run_rewrites {epsilon : α} {tree : Expr α} {result : Optimized α}
    (done : run epsilon tree = .ok result) : Rewrites epsilon tree result.tree :=
  sweeps_rewrite done

end Fluxion.Simplify
