import Fluxion.Expr.Evaluation
import Fluxion.Proofs.Expr.Related

/-!
Evaluating related trees. Operators and functions have related results where they have any, and
none together otherwise; the message that goes with none may show the operands and differ. Main
statement: under related bindings, related trees have related values or both have none.
-/

namespace Fluxion

open Outcome

variable {α : Type}

/-- Values of which the relation holds, or faults of evaluation on both sides. -/
inductive ValuedAlike (numbers : α → α → Prop) : Except Fault α → Except Fault α → Prop
  | value {a a' : α} (close : numbers a a') : ValuedAlike numbers (.ok a) (.ok a')
  | fault (cause cause' : EvaluationFault) :
      ValuedAlike numbers (.error (.evaluation cause)) (.error (.evaluation cause'))

theorem ValuedAlike.bind {numbers : α → α → Prop} {first first' : Except Fault α}
    {next next' : α → Except Fault α} (alike : ValuedAlike numbers first first')
    (continues : ∀ a a', numbers a a' → ValuedAlike numbers (next a) (next' a')) :
    ValuedAlike numbers (first >>= next) (first' >>= next') := by
  cases alike with
  | value close => exact continues _ _ close
  | fault cause cause' => exact .fault cause cause'

variable [Scalar α]

structure AlikeValues (numbers : α → α → Prop) : Prop where
  apply {a a' : α} (f : NamedFunction) : numbers a a' →
    Option.Rel numbers (Scalar.apply f a) (Scalar.apply f a')
  euler : numbers Scalar.euler Scalar.euler
  pi : numbers Scalar.pi Scalar.pi

section

variable {numbers : α → α → Prop}

theorem Bindings.of_variable_related (alikeValues : AlikeValues numbers) {value value' : α}
    {environment environment' : Bindings α}
    (close : numbers value value')
    (bound : ∀ name, Option.Rel numbers (environment name) (environment' name))
    (variableName name : String) :
    Option.Rel numbers (ofVariable variableName value environment name)
      (ofVariable variableName value' environment' name) := by
  unfold ofVariable
  split
  · exact .some close
  · have answers := bound name
    generalize environment name = answer, environment' name = answer' at answers ⊢
    cases answers with
    | some close => exact .some close
    | none =>
        show Option.Rel numbers (constants name) (constants name)
        unfold constants
        split
        · exact .some alikeValues.euler
        · split
          · exact .some alikeValues.pi
          · exact .none

namespace Expr

section

variable {epsilon : α} (alikeNumbers : AlikeNumbers epsilon numbers)

include alikeNumbers

theorem evaluate_fold_alike {op : BinaryOp} (known : op.isKnown = true) {a a' b b' : α}
    (left : numbers a a') (right : numbers b b') {cause cause' : EvaluationFault} :
    ValuedAlike numbers
      (do match ← op.fold a b with
          | some value => pure value
          | none => throw (.evaluation cause))
      (do match ← op.fold a' b' with
          | some value => pure value
          | none => throw (.evaluation cause')) := by
  have folds := alikeNumbers.fold op left right
  generalize folded : op.fold a b = first, op.fold a' b' = second at folds ⊢
  cases folds with
  | ok results =>
      cases results with
      | some close => exact .value close
      | none => exact .fault _ _
  | error fault =>
      cases op with
      | other symbol => cases known
      | add | sub | mul | div | pow => cases folded

variable (alikeValues : AlikeValues numbers)

include alikeValues

omit alikeNumbers in
theorem evaluate_apply_alike (f : NamedFunction) {a a' : α} (close : numbers a a')
    {cause cause' : EvaluationFault} :
    ValuedAlike numbers
      (match Scalar.apply f a with
        | some result => pure result
        | none => throw (.evaluation cause))
      (match Scalar.apply f a' with
        | some result => pure result
        | none => throw (.evaluation cause')) := by
  have results := alikeValues.apply f close
  generalize Scalar.apply f a = result, Scalar.apply f a' = result' at results ⊢
  cases results with
  | some close => exact .value close
  | none => exact .fault _ _

theorem Related.evaluate_in {bindings bindings' : Bindings α}
    (bound : ∀ name, Option.Rel numbers (bindings name) (bindings' name))
    {tree tree' : Expr α} (related : Related numbers Eq tree tree') (built : tree.Built) :
    ValuedAlike numbers (tree.evaluateIn bindings) (tree'.evaluateIn bindings') := by
  induction related with
  | missing => exact absurd built built_missing
  | num close => exact .value close
  | @var x y close =>
      subst close
      rw [evaluateIn, evaluateIn]
      have answers := bound x
      generalize bindings x = answer, bindings' x = answer' at answers ⊢
      cases answers with
      | some close => exact .value close
      | none => exact .fault _ _
  | binary op left right first second =>
      obtain ⟨known, builtLeft, builtRight⟩ := (built_binary _ _ _).1 built
      rw [evaluateIn, evaluateIn]
      refine (first builtLeft).bind fun a a' lefts => (second builtRight).bind fun b b' rights => ?_
      exact evaluate_fold_alike alikeNumbers known lefts rights
  | signed op inner induction =>
      rw [evaluateIn, evaluateIn]
      refine (induction ((built_signed _ _).1 built).2).bind fun a a' close => ?_
      split
      · exact .value (alikeNumbers.neg close)
      · exact .value close
  | marked op inner induction => exact .fault _ _
  | call name inner induction =>
      rw [evaluateIn, evaluateIn]
      cases NamedFunction.ofName? name with
      | none => exact .fault _ _
      | some f =>
          refine (induction ((built_call _ _).1 built).2).bind fun a a' close => ?_
          exact evaluate_apply_alike alikeValues f close

/-- Related trees have related values at related points, or neither has one. -/
theorem Related.evaluate {tree tree' : Expr α} (related : Related numbers Eq tree tree')
    (built : tree.Built) {value value' : α} {environment environment' : Bindings α}
    (close : numbers value value')
    (bound : ∀ name, Option.Rel numbers (environment name) (environment' name))
    (variableName : String) :
    ValuedAlike numbers (tree.evaluate value variableName environment)
      (tree'.evaluate value' variableName environment') :=
  related.evaluate_in alikeNumbers alikeValues
    (Bindings.of_variable_related alikeValues close bound variableName) built

end

end Expr

end

end Fluxion
