import Fluxion.Proofs.Simplify.Settling

/-!
Trees at rest. A sweep that reports no change has changed nothing, so optimization ends in
a tree that another sweep leaves as it is. Main statements: in such a tree every part is at
rest, and no rule applies to a node and its children.
-/

namespace Fluxion.Simplify

open Outcome Fluxion.Expr

variable {α : Type} [Scalar α] {epsilon : α}

omit [Scalar α] in
theorem settle_unchanged {reduced : Option (Expr α)} {node : Expr α} {changed : Bool}
    (unchanged : (settle reduced node changed).changed = false) :
    reduced = none ∧ changed = false ∧ (settle reduced node changed).tree = node := by
  cases reduced with
  | none => exact ⟨rfl, unchanged, rfl⟩
  | some tree => cases unchanged

theorem sweep_unchanged {tree : Expr α} {pass : Pass α} (built : tree.Built)
    (swept : sweep epsilon tree = .ok pass) (unchanged : pass.changed = false) :
    pass.tree = tree := by
  induction tree generalizing pass with
  | missing => exact absurd built built_missing
  | num value | var name =>
      cases swept
      rfl
  | binary op lhs rhs left right =>
      obtain ⟨-, builtLeft, builtRight⟩ := (built_binary _ _ _).1 built
      obtain ⟨passLeft, sweptLeft⟩ := sweep_total epsilon builtLeft
      obtain ⟨passRight, sweptRight⟩ := sweep_total epsilon builtRight
      rcases sweep_binary built sweptLeft sweptRight with ⟨value, done⟩ | done
      · cases swept.symm.trans done
        cases unchanged
      · cases swept.symm.trans done
        obtain ⟨-, both, same⟩ := settle_unchanged unchanged
        obtain ⟨first, second⟩ := Bool.or_eq_false_iff.1 both
        rw [same, left builtLeft sweptLeft first, right builtRight sweptRight second]
  | signed op operand inner =>
      have builtInner := ((built_signed _ _).1 built).2
      obtain ⟨passInner, sweptInner⟩ := sweep_total epsilon builtInner
      cases swept.symm.trans (sweep_signed built sweptInner)
      obtain ⟨-, still, same⟩ := settle_unchanged unchanged
      rw [same, inner builtInner sweptInner still]
  | marked op operand inner =>
      have builtInner := ((built_marked _ _).1 built).2
      obtain ⟨passInner, sweptInner⟩ := sweep_total epsilon builtInner
      cases swept.symm.trans (sweep_marked built sweptInner)
      exact congrArg (Expr.marked op) (inner builtInner sweptInner unchanged)
  | call name arg inner =>
      have builtInner := ((built_call _ _).1 built).2
      obtain ⟨passInner, sweptInner⟩ := sweep_total epsilon builtInner
      cases swept.symm.trans (sweep_call built sweptInner)
      obtain ⟨-, still, same⟩ := settle_unchanged unchanged
      rw [same, inner builtInner sweptInner still]

theorem still_of_sweeps {left before : Nat} {tree : Expr α} {result : Optimized α}
    (built : tree.Built) (done : sweepsFrom epsilon left before tree = .ok result) :
    Settles epsilon 0 result.tree := by
  induction left generalizing before tree with
  | zero => cases done
  | succ left induction =>
      simp only [sweepsFrom, bind_eq_ok] at done
      obtain ⟨pass, swept, done⟩ := done
      cases changed : pass.changed with
      | true =>
          rw [if_pos changed] at done
          exact induction ((sweep_rewrites swept).built built) done
      | false =>
          rw [changed] at done
          cases pure_eq_ok.1 done
          obtain ⟨tree', changed'⟩ := pass
          cases sweep_unchanged built swept changed
          cases changed
          exact swept

theorem still_of_optimize {tree optimized : Expr α} (built : tree.Built)
    (done : tree.optimize = .ok optimized) : Settles Scalar.tolerance 0 optimized := by
  simp only [optimize, bind_eq_ok, pure_eq_ok] at done
  obtain ⟨result, ran, rfl⟩ := done
  exact still_of_sweeps built ran

section

variable {op : BinaryOp} {lhs rhs : Expr α}

theorem still_binary (built : (Expr.binary op lhs rhs).Built)
    (still : Settles epsilon 0 (.binary op lhs rhs)) :
    Settles epsilon 0 lhs ∧ Settles epsilon 0 rhs ∧ reduceBinary epsilon op lhs rhs = none := by
  obtain ⟨-, builtLeft, builtRight⟩ := (built_binary _ _ _).1 built
  obtain ⟨⟨left, changed⟩, sweptLeft⟩ := sweep_total epsilon builtLeft
  obtain ⟨⟨right, changed'⟩, sweptRight⟩ := sweep_total epsilon builtRight
  rcases sweep_binary built sweptLeft sweptRight with ⟨value, done⟩ | done
  · cases still.symm.trans done
  · have same := Except.ok.inj (done.symm.trans still)
    obtain ⟨irreducible, both, -⟩ := settle_unchanged (congrArg Pass.changed same)
    obtain ⟨first, second⟩ := Bool.or_eq_false_iff.1 both
    cases sweep_unchanged builtLeft sweptLeft first
    cases sweep_unchanged builtRight sweptRight second
    cases first
    cases second
    exact ⟨sweptLeft, sweptRight, irreducible⟩

/-- Two numbers are at rest only where they have no result. -/
theorem still_numbers {a b : α} (known : op.isKnown = true)
    (still : Settles epsilon 0 (.binary op (.num a) (.num b))) : op.fold a b = .ok none := by
  rcases sweep_numbers epsilon known a b with ⟨value, done⟩ | ⟨outside, -⟩
  · cases still.symm.trans done
  · exact outside

theorem still_signed {sign : SignOp} {operand : Expr α} (built : (Expr.signed sign operand).Built)
    (still : Settles epsilon 0 (.signed sign operand)) :
    Settles epsilon 0 operand ∧ reduceSigned sign operand = none := by
  have inner := still_under_sign built still
  refine ⟨inner, ?_⟩
  have same := Except.ok.inj ((sweep_signed built inner).symm.trans still)
  exact (settle_unchanged (congrArg Pass.changed same)).1

theorem still_under_marker {op : MarkOp} {operand : Expr α} (built : (Expr.marked op operand).Built)
    (still : Settles epsilon 0 (.marked op operand)) : Settles epsilon 0 operand := by
  have builtInner := ((built_marked _ _).1 built).2
  obtain ⟨pass, swept⟩ := sweep_total epsilon builtInner
  have same := Except.ok.inj ((sweep_marked built swept).symm.trans still)
  have unchanged : pass.changed = false := congrArg Pass.changed same
  obtain ⟨tree, changed⟩ := pass
  cases sweep_unchanged builtInner swept unchanged
  cases unchanged
  exact swept

theorem still_argument {name : String} {arg : Expr α} (built : (Expr.call name arg).Built)
    (still : Settles epsilon 0 (.call name arg)) : Settles epsilon 0 arg := by
  have builtInner := ((built_call _ _).1 built).2
  obtain ⟨pass, swept⟩ := sweep_total epsilon builtInner
  have same := Except.ok.inj ((sweep_call built swept).symm.trans still)
  obtain ⟨-, unchanged, -⟩ := settle_unchanged (congrArg Pass.changed same)
  obtain ⟨tree, changed⟩ := pass
  cases sweep_unchanged builtInner swept unchanged
  cases unchanged
  exact swept

end

end Fluxion.Simplify
