import Fluxion.Proofs.Expr.Binding
import Fluxion.Proofs.Expr.Built

/-!
Finite values of trees. An operator has a finite result or none, and a function of a finite
number is finite unless it is a cotangent. So an infinity can come up in one place only, and
from there nothing but signs and logarithms hand it on. Main statement: evaluation gives a
finite number, an evaluation fault, or the infinity of a cotangent that got to the root.
-/

namespace Fluxion

open Scalar

variable {α : Type} [Scalar α]

namespace Scalar

/-- How the operations of a scalar keep to its finite and its infinite numbers. -/
structure Ranges (finite infinite : α → Prop) : Prop where
  euler : finite euler
  pi : finite pi
  neg_finite {a : α} : finite a → finite (neg a)
  neg_infinite {a : α} : infinite a → infinite (neg a)
  fold_finite {op : BinaryOp} {a b c : α} : op.fold a b = .ok (some c) → finite c
  apply_finite {f : NamedFunction} {a b : α} : finite a → apply f a = some b →
    finite b ∨ f = .ctg ∧ infinite b
  apply_infinite {f : NamedFunction} {a b : α} : infinite a → apply f a = some b →
    f = .ln ∧ infinite b

end Scalar

theorem NamedFunction.eq_name {name : String} {f : NamedFunction}
    (named : NamedFunction.ofName? name = some f) : name = f.name := by
  have found := List.find?_some named
  exact (beq_iff_eq.1 found).symm

namespace Expr

variable {finite infinite : α → Prop} {bindings : Bindings α} {tree tree' : Expr α}

/-- Somewhere below signs and logarithms a cotangent of a finite number is infinite. -/
inductive Overflows (finite infinite : α → Prop) (bindings : Bindings α) : Expr α → Prop
  | cotangent {arg : Expr α} {a b : α} (evaluated : arg.evaluateIn bindings = .ok a)
      (whole : finite a) (defined : apply .ctg a = some b) (beyond : infinite b) :
      Overflows finite infinite bindings (call "ctg" arg)
  | sign (op : SignOp) {operand : Expr α} (inner : Overflows finite infinite bindings operand) :
      Overflows finite infinite bindings (signed op operand)
  | logarithm {arg : Expr α} (inner : Overflows finite infinite bindings arg) :
      Overflows finite infinite bindings (call "ln" arg)

/-- The outcomes that evaluation can have. -/
inductive InRange (finite infinite : α → Prop) (bindings : Bindings α) (tree : Expr α) :
    Except Fault α → Prop
  | finite {w : α} (whole : finite w) : InRange finite infinite bindings tree (.ok w)
  | fault (fault : EvaluationFault) :
      InRange finite infinite bindings tree (.error (.evaluation fault))
  | infinite {w : α} (beyond : infinite w) (overflows : Overflows finite infinite bindings tree) :
      InRange finite infinite bindings tree (.ok w)

theorem InRange.bind {outcome : Except Fault α} {next : α → Except Fault α}
    (ranged : InRange finite infinite bindings tree outcome)
    (ofFinite : ∀ a, finite a → InRange finite infinite bindings tree' (next a))
    (ofInfinite : ∀ a, infinite a → Overflows finite infinite bindings tree →
      InRange finite infinite bindings tree' (next a)) :
    InRange finite infinite bindings tree' (outcome >>= next) := by
  cases ranged with
  | finite whole => exact ofFinite _ whole
  | fault fault => exact .fault fault
  | infinite beyond overflows => exact ofInfinite _ beyond overflows

theorem InRange.bind_any {outcome : Except Fault α} {next : α → Except Fault α}
    (ranged : InRange finite infinite bindings tree outcome)
    (continues : ∀ a, InRange finite infinite bindings tree' (next a)) :
    InRange finite infinite bindings tree' (outcome >>= next) :=
  ranged.bind (fun a _ => continues a) (fun a _ _ => continues a)

section

variable (ranges : Ranges finite infinite)
include ranges

theorem operation_in_range {op : BinaryOp} (known : op.isKnown = true) (left right : α) :
    InRange finite infinite bindings tree (do
      match ← op.fold left right with
      | some value => pure value
      | none => throw (.evaluation (.undefinedOperation (text left) op.symbol (text right)))) := by
  obtain ⟨result, folds⟩ : ∃ result, op.fold left right = .ok result := by
    cases op with
    | add | sub | mul | div | pow => exact ⟨_, rfl⟩
    | other symbol => cases known
  rw [folds]
  cases result with
  | some value => exact .finite (ranges.fold_finite folds)
  | none => exact .fault _

theorem sign_in_range {op : SignOp} {operand : Expr α}
    (inner : InRange finite infinite bindings operand (operand.evaluateIn bindings)) :
    InRange finite infinite bindings (signed op operand)
      ((signed op operand).evaluateIn bindings) := by
  rw [evaluateIn]
  refine inner.bind (fun a whole => ?_) (fun a beyond overflows => ?_)
  · split
    · exact .finite (ranges.neg_finite whole)
    · exact .finite whole
  · split
    · exact .infinite (ranges.neg_infinite beyond) (.sign op overflows)
    · exact .infinite beyond (.sign op overflows)

theorem call_in_range {name : String} {arg : Expr α}
    (inner : InRange finite infinite bindings arg (arg.evaluateIn bindings)) :
    InRange finite infinite bindings (call name arg) ((call name arg).evaluateIn bindings) := by
  rw [evaluateIn]
  cases named : NamedFunction.ofName? name with
  | none => exact .fault _
  | some f =>
      cases evaluated : arg.evaluateIn bindings with
      | error fault =>
          rw [evaluated] at inner
          cases inner
          exact .fault _
      | ok a =>
          rw [evaluated] at inner
          show InRange finite infinite bindings (call name arg)
            (match apply f a with
              | some result => pure result
              | none => throw (.evaluation (.undefinedCall name (text a))))
          cases defined : apply f a with
          | none => exact .fault _
          | some b =>
              cases inner with
              | finite whole =>
                  rcases ranges.apply_finite whole defined with whole' | ⟨rfl, beyond⟩
                  · exact .finite whole'
                  · cases NamedFunction.eq_name named
                    exact .infinite beyond (.cotangent evaluated whole defined beyond)
              | infinite beyond overflows =>
                  obtain ⟨rfl, beyond'⟩ := ranges.apply_infinite beyond defined
                  cases NamedFunction.eq_name named
                  exact .infinite beyond' (.logarithm overflows)

theorem evaluate_in_range (bound : ∀ name a, bindings name = some a → finite a)
    (built : tree.Built) (numbers : tree.NumbersHold finite) :
    InRange finite infinite bindings tree (tree.evaluateIn bindings) := by
  induction tree with
  | missing => exact absurd built built_missing
  | num a => exact .finite numbers
  | var name =>
      rw [evaluateIn]
      cases known : bindings name with
      | some a => exact .finite (bound name a known)
      | none => exact .fault _
  | binary op lhs rhs left right =>
      obtain ⟨known, builtLeft, builtRight⟩ := (built_binary _ _ _).1 built
      have first := left builtLeft numbers.1
      have second := right builtRight numbers.2
      rw [evaluateIn]
      exact first.bind_any fun a => second.bind_any fun b => operation_in_range ranges known a b
  | signed op operand inner =>
      exact sign_in_range ranges (inner ((built_signed _ _).1 built).2 numbers)
  | marked op operand => exact .fault _
  | call name arg inner =>
      exact call_in_range ranges (inner ((built_call _ _).1 built).2 numbers)

theorem bound_of_environment (variableName : String) {value : α} {environment : Bindings α}
    (whole : finite value) (bound : ∀ name a, environment name = some a → finite a)
    (name : String) (a : α)
    (known : Bindings.ofVariable variableName value environment name = some a) : finite a := by
  unfold Bindings.ofVariable at known
  split at known
  · cases known
    exact whole
  rcases Option.or_eq_some_iff.1 known with known | ⟨-, known⟩
  · exact bound name a known
  unfold Bindings.constants at known
  split at known
  · cases known
    exact ranges.euler
  split at known
  · cases known
    exact ranges.pi
  · cases known

/-- The value of a tree over finite numbers, if it has one, is finite or comes from a cotangent
that overflows. -/
theorem evaluate_of_ranges {variableName : String} {value : α} {environment : Bindings α}
    (built : tree.Built) (numbers : tree.NumbersHold finite) (whole : finite value)
    (bound : ∀ name a, environment name = some a → finite a) :
    (∃ w, tree.evaluate value variableName environment = .ok w ∧ finite w) ∨
    (∃ fault, tree.evaluate value variableName environment = .error (.evaluation fault)) ∨
    ∃ w, tree.evaluate value variableName environment = .ok w ∧ infinite w ∧
      Overflows finite infinite (Bindings.ofVariable variableName value environment) tree := by
  have known := bound_of_environment ranges variableName whole bound
  have ranged := evaluate_in_range ranges known built numbers
  unfold evaluate
  generalize evaluateIn (Bindings.ofVariable variableName value environment) tree = outcome
    at ranged ⊢
  cases ranged with
  | finite whole => exact .inl ⟨_, rfl, whole⟩
  | fault fault => exact .inr (.inl ⟨fault, rfl⟩)
  | infinite beyond overflows => exact .inr (.inr ⟨_, rfl, beyond, overflows⟩)

end

end Expr

end Fluxion
