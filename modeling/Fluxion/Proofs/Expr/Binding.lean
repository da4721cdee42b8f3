import Fluxion.Expr.Evaluation
import Fluxion.Expr.Substitution
import Fluxion.Proofs.Decimal.Equality
import Fluxion.Proofs.Expr.Same
import Fluxion.Proofs.Outcome

/-!
Putting a number in for a variable against binding the variable to it. Evaluation asks the
bindings for the value of a name and nothing else, so it makes no difference who answers:
the leaf that became a number or the binding that comes before all others. Main statement:
a tree with a number put in evaluates to what it evaluates to with the variable bound to
that number, whatever the variable is bound to afterwards, and faults are the same too.
-/

namespace Fluxion.Expr

open Outcome

variable {α : Type}

def NumbersHold (holds : α → Prop) : Expr α → Prop
  | missing | var _ => True
  | num value => holds value
  | binary _ lhs rhs => lhs.NumbersHold holds ∧ rhs.NumbersHold holds
  | signed _ operand | marked _ operand => operand.NumbersHold holds
  | call _ arg => arg.NumbersHold holds

theorem NumbersHold.imp {holds holds' : α → Prop} {tree : Expr α} (numbers : tree.NumbersHold holds)
    (implies : ∀ value, holds value → holds' value) : tree.NumbersHold holds' := by
  induction tree with
  | missing | var name => trivial
  | num value => exact implies value numbers
  | binary op lhs rhs left right => exact ⟨left numbers.1, right numbers.2⟩
  | signed op operand inner | marked op operand inner | call name operand inner =>
      exact inner numbers

theorem fill_in_of_constant {v : String} {tree : Expr α} (a : α)
    (constant : tree.isConstant v = true) : tree.fillIn a v = tree := by
  induction tree with
  | missing | num value => rfl
  | var name =>
      have differs : name ≠ v := by simpa [isConstant] using constant
      exact if_neg differs
  | binary op lhs rhs left right =>
      simp only [isConstant, Bool.and_eq_true] at constant
      rw [fillIn, left constant.1, right constant.2]
  | signed op operand inner | marked op operand inner | call name operand inner =>
      rw [fillIn, inner constant]

variable [Scalar α]

theorem same_self {tree : Expr α} (reflexive : tree.NumbersHold fun a => Scalar.same a a = true) :
    tree.same tree = true := by
  induction tree with
  | missing => rfl
  | num value => exact reflexive
  | var name => exact beq_self_eq_true name
  | binary op lhs rhs left right => simp [same, left reflexive.1, right reflexive.2]
  | signed op operand inner | marked op operand inner | call name operand inner =>
      simp [same, inner reflexive]

theorem constant_of_same_fill_in {a : α} {v : String} {tree : Expr α}
    (same : (tree.fillIn a v).same tree = true) : tree.isConstant v = true := by
  induction tree with
  | missing | num value => rfl
  | var name =>
      by_cases itself : name = v
      · rw [fillIn, if_pos itself] at same
        cases same
      · simpa [isConstant] using itself
  | binary op lhs rhs left right =>
      simp only [fillIn, Expr.same, Bool.and_eq_true] at same
      simp only [isConstant, Bool.and_eq_true]
      exact ⟨left same.1.2, right same.2⟩
  | signed op operand inner | marked op operand inner | call name operand inner =>
      simp only [fillIn, Expr.same, Bool.and_eq_true] at same
      exact inner same.2

/-- A number is found in the tree or in the bindings, if they agree otherwise. -/
theorem evaluate_in_fill_in {before after : Bindings α} {a : α} {v : String}
    (bound : before v = some a) (elsewhere : ∀ name, name ≠ v → after name = before name)
    (tree : Expr α) : (tree.fillIn a v).evaluateIn after = tree.evaluateIn before := by
  induction tree with
  | missing | num value => rfl
  | var name =>
      by_cases itself : name = v
      · rw [fillIn, if_pos itself, itself, evaluateIn, evaluateIn, bound]
      · rw [fillIn, if_neg itself, evaluateIn, evaluateIn, elsewhere name itself]
  | binary op lhs rhs left right => simp only [fillIn, evaluateIn, left, right]
  | signed op operand inner | call name operand inner => simp only [fillIn, evaluateIn, inner]
  | marked op operand inner => rfl

theorem evaluate_filled (a b : α) (v : String) (environment : Bindings α) (tree : Expr α) :
    (tree.fillIn a v).evaluate b v environment = tree.evaluate a v environment := by
  apply evaluate_in_fill_in
  · exact if_pos rfl
  · intro name differs
    exact (if_neg differs).trans (if_neg differs).symm

theorem whole_of_evaluate_in {bindings : Bindings α} {tree : Expr α} {value : α}
    (evaluates : tree.evaluateIn bindings = .ok value) : tree.isWhole = true := by
  induction tree generalizing value with
  | missing | marked op operand inner => simp [evaluateIn] at evaluates
  | num value | var name => rfl
  | binary op lhs rhs left right =>
      simp only [evaluateIn, bind_eq_ok] at evaluates
      obtain ⟨_, first, _, second, -⟩ := evaluates
      rw [isWhole, left first, right second]
      rfl
  | signed op operand inner =>
      simp only [evaluateIn, bind_eq_ok] at evaluates
      obtain ⟨_, first, -⟩ := evaluates
      exact inner first
  | call name arg inner =>
      rw [evaluateIn] at evaluates
      split at evaluates
      · simp at evaluates
      · simp only [bind_eq_ok] at evaluates
        obtain ⟨_, first, -⟩ := evaluates
        exact inner first

/-- A tree with a number put in for a variable evaluates as the tree does with the variable
bound to that number; it no longer holds the variable, and it is the same tree exactly if
there was none, in which case the number does not matter. In a tree with a missing part no
number can be put and it has no value. -/
theorem substitution_agrees_with_binding (tree : Expr Float) (a b : Float) (v : String)
    (environment : Bindings Float) :
    (tree.isWhole = true → ∃ filled, tree.substitute a v = .ok filled ∧
      filled.evaluate b v environment = tree.evaluate a v environment ∧
      filled.isConstant v = true ∧
      (tree.NumbersHold (fun x => x.isNaN = false) →
        (tree.isConstant v = true ↔ filled.same tree = true))) ∧
    (tree.isWhole = false → (∃ fault, tree.substitute a v = .error fault) ∧
      ∃ fault, tree.evaluate a v environment = .error fault) ∧
    (tree.isConstant v = true →
      ∀ c, tree.evaluate a v environment = tree.evaluate c v environment) := by
  have filled (c : Float) := evaluate_filled c b v environment tree
  refine ⟨fun whole => ?_, fun halfBuilt => ?_, fun constant c => ?_⟩
  · refine ⟨tree.fillIn a v, if_pos whole, filled a, is_constant_fill_in a v tree, ?_⟩
    intro numbers
    constructor
    · intro constant
      rw [fill_in_of_constant a constant]
      exact same_self (numbers.imp fun x number => Decimal.same_self_iff.2 number)
    · exact constant_of_same_fill_in
  · refine ⟨⟨_, if_neg (by simp [halfBuilt])⟩, ?_⟩
    cases evaluates : tree.evaluate a v environment with
    | error fault => exact ⟨fault, rfl⟩
    | ok value =>
        rw [whole_of_evaluate_in evaluates] at halfBuilt
        cases halfBuilt
  · rw [← filled a, ← filled c, fill_in_of_constant a constant, fill_in_of_constant c constant]

/-- Two put in for `e` in `e * (y + e)`, where the environment binds `e` as well. -/
theorem substitution_agrees_with_binding_of_euler :
    ∃ filled, (binary .mul (var "e") (binary .add (var "y") (var "e"))).substitute (2 : Float) "e" =
        .ok filled ∧
      filled.evaluate 7 "e" (fun _ => some 5) =
        (binary .mul (var "e") (binary .add (var "y") (var "e"))).evaluate 2 "e" (fun _ => some 5) ∧
      filled.isConstant "e" = true ∧
      filled.same (binary .mul (var "e") (binary .add (var "y") (var "e"))) = false := by
  obtain ⟨holds, -, -⟩ := substitution_agrees_with_binding
    (binary .mul (var "e") (binary .add (var "y") (var "e"))) 2 7 "e" (fun _ => some 5)
  obtain ⟨filled, done, agrees, constant, unchanged⟩ := holds rfl
  refine ⟨filled, done, agrees, constant, ?_⟩
  rw [← Bool.not_eq_true, ← unchanged ⟨trivial, trivial, trivial⟩]
  decide

end Fluxion.Expr
