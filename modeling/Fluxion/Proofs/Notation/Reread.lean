import Fluxion.Proofs.Decimal.Interchange
import Fluxion.Proofs.Grammar.Answers
import Fluxion.Proofs.Notation.Refused
import Fluxion.Proofs.Notation.RoundTrip

/-!
Evaluating what was written and read again. Reading puts a sign in front of the opposite of each
negative number, and two signs cancel, so the tree that is read has the values of the tree that was
written. Main statement: the text of a legible tree of finite numbers is accepted exactly if the
numbers are whole, and then the two trees have equal values at every point, or neither has one.
-/

namespace Fluxion

open Decimal Outcome

namespace Expr

variable {α : Type} [Scalar α]

theorem height_desugar (tree : Expr α) : tree.desugar.height ≤ tree.height + 1 := by
  induction tree with
  | missing | var name => exact Nat.le_succ _
  | num value =>
      rw [desugar]
      split
      · exact Nat.le_refl _
      · exact Nat.le_succ _
  | binary op lhs rhs left right =>
      simp only [desugar, height]
      omega
  | signed op operand inner | marked op operand inner | call name operand inner =>
      exact Nat.succ_le_succ inner

end Expr

namespace Decimal.Library

theorem evaluate_in_desugar (library : Library) (bindings : Bindings Float) (tree : Expr Float) :
    @Expr.evaluateIn Float library.scalar bindings tree.desugar =
      @Expr.evaluateIn Float library.scalar bindings tree := by
  induction tree with
  | missing | var name | marked op operand inner => rfl
  | num value =>
      rw [Expr.desugar]
      split
      · exact congrArg Except.ok (neg_neg_eq value)
      · rfl
  | binary op lhs rhs left right =>
      rw [Expr.desugar]
      simp only [Expr.evaluateIn, left, right]
  | signed op operand inner | call name operand inner =>
      rw [Expr.desugar]
      simp only [Expr.evaluateIn, inner]

/-- The tree that is read has the values of the tree that was written. -/
theorem evaluate_of_desugar {library : Library} (respects : library.Respects)
    {tree again : Expr Float} (built : again.Built) (same : again.same tree.desugar = true)
    {value : Float} {environment : Bindings Float} (number : value.isNaN = false)
    (numbers : ∀ name w, environment name = some w → w.isNaN = false) (variableName : String) :
    letI := library.scalar
    ValuedAlike (fun a b => Scalar.same a b = true)
      (again.evaluate value variableName environment)
      (tree.evaluate value variableName environment) := by
  have alike := @evaluate_of_equal_numbers Float library.scalar (fun x => x.isNaN = false) again
    tree.desugar Scalar.tolerance value environment (alike_numbers respects _)
    (alike_values respects) (fun _ => same_self_iff.2) built (Expr.matches_of_same same).related
    number numbers variableName
  unfold Expr.evaluate at alike ⊢
  rwa [evaluate_in_desugar] at alike

end Decimal.Library

structure Reread (tree : Expr Float) (text : String) : Prop where
  accepted : (∃ again : Expr Float, parse text = .ok again) ↔ tree.AllWhole
  refused : ¬tree.AllWhole → ∃ site run, (parse text : Except Fault (Expr Float)) =
    .error (.located .lexical site (.notANumber run))
  valued {again : Expr Float} : parse text = .ok again →
    ∀ (library : Library) (_ : library.Respects) (value : Float) (variableName : String)
      (environment : Bindings Float), value.isNaN = false →
      (∀ name w, environment name = some w → w.isNaN = false) →
      letI := library.scalar
      ValuedAlike (fun a b => Scalar.same a b = true)
        (again.evaluate value variableName environment)
        (tree.evaluate value variableName environment)

theorem built_of_parse {text : String} {tree : Expr Float} (parsed : parse text = .ok tree) :
    tree.Built := by
  rcases parse_answers text with ⟨tree', parsed', plain, -⟩ | ⟨_, _, _, -, refused⟩
  · cases parsed.symm.trans parsed'
    exact plain.1
  · cases parsed.symm.trans refused

/-- The text of a legible tree is accepted or refused for a number that is not whole. -/
theorem reread_of_legible {tree : Expr Float} {text : String} (legible : tree.Legible IsName)
    (finite : tree.NumbersHold (Scalar.isFinite · = true)) (shallow : tree.depth < depthLimit)
    (written : tree.toInfix = .ok text) : Reread tree text := by
  have read (whole : tree.AllWhole) :
      ∃ again : Expr Float, parse text = .ok again ∧ again.same tree.desugar = true := by
    have low : tree.desugar.depth ≤ depthLimit := by
      rw [Expr.depth_eq_height] at shallow ⊢
      exact Nat.le_trans tree.height_desugar shallow
    exact parse_written whole_numbers (Expr.printable_iff.2 ⟨legible, whole⟩) low written
  have refused (notWhole : ¬tree.AllWhole) :
      ∃ site run, (parse text : Except Fault (Expr Float)) =
        .error (.located .lexical site (.notANumber run)) := by
    obtain ⟨text', written', refused⟩ := infix_refused legible finite freePriority
    cases written.symm.trans written'
    exact (refused notWhole).parse
  have whole {again : Expr Float} (parsed : parse text = .ok again) : tree.AllWhole := by
    by_contra notWhole
    obtain ⟨site, run, failed⟩ := refused notWhole
    cases parsed.symm.trans failed
  refine ⟨⟨fun ⟨again, parsed⟩ => whole parsed, fun isWhole => ?_⟩, refused, ?_⟩
  · obtain ⟨again, parsed, -⟩ := read isWhole
    exact ⟨again, parsed⟩
  · intro again parsed library respects value variableName environment number numbers
    obtain ⟨again', parsed', same⟩ := read (whole parsed)
    cases parsed.symm.trans parsed'
    exact Library.evaluate_of_desugar respects (built_of_parse parsed) same number numbers
      variableName

end Fluxion
