import Fluxion.Proofs.Decimal.Alike
import Fluxion.Proofs.Derivative.Related

/-!
Trees that are equal, side by side. They have the same nodes over equal doubles, so the engine
cannot tell them apart, be it that it writes, optimizes, differentiates or evaluates them. Main
statement: equal trees have the same texts, equal optimized trees after the same number of sweeps,
and equal derivatives and values, or neither has one.
-/

namespace Fluxion

open Outcome

variable {α : Type}

namespace Expr

theorem Built.constant {tree : Expr α} (built : tree.Built) : tree.isConstant "" = true := by
  induction tree with
  | missing | num value => rfl
  | var name => simpa [isConstant] using built
  | binary op lhs rhs left right =>
      obtain ⟨-, builtLeft, builtRight⟩ := (built_binary _ _ _).1 built
      rw [isConstant, left builtLeft, right builtRight, Bool.and_self]
  | signed op operand inner => exact inner ((built_signed _ _).1 built).2
  | marked op operand inner => exact inner ((built_marked _ _).1 built).2
  | call name arg inner => exact inner ((built_call _ _).1 built).2

variable [Scalar α] {tree tree' : Expr α}

theorem Matches.related (matched : Matches tree tree') :
    tree.Related (fun a b => Scalar.same a b = true) Eq tree' := by
  induction matched with
  | missing => exact .missing
  | num close => exact .num close
  | var name => exact .var rfl
  | binary op left right first second => exact .binary op first second
  | signed op inner induction => exact .signed op induction
  | marked op inner induction => exact .marked op induction
  | call name inner induction => exact .call name induction

theorem Related.matches (related : tree.Related (fun a b => Scalar.same a b = true) Eq tree') :
    Matches tree tree' := by
  induction related with
  | missing => exact .missing
  | num close => exact .num close
  | var close =>
      subst close
      exact .var _
  | binary op left right first second => exact .binary op first second
  | signed op inner induction => exact .signed op induction
  | marked op inner induction => exact .marked op induction
  | call name inner induction => exact .call name induction

end Expr

theorem alike_names_eq (odd : String) : AlikeNames odd Eq where
  equal left right := by rw [left, right]
  empty same empty := same.trans empty
  euler same _ := by rw [same]

/-- Two trees that the engine cannot tell apart. What is called a number may be bound. -/
structure Interchangeable [Scalar α] (number : α → Prop) (tree tree' : Expr α) : Prop where
  written : ∃ text, tree.toInfix = .ok text ∧ tree'.toInfix = .ok text
  typeset : ∃ text, tree.toLatex = .ok text ∧ tree'.toLatex = .ok text
  optimized (epsilon : α) :
    Agree (fun result result' => result.tree.same result'.tree = true ∧
        result.sweeps = result'.sweeps)
      (Simplify.run epsilon tree) (Simplify.run epsilon tree')
  differentiated (v : String) :
    (∃ raw raw', tree.rawDerivative v = .ok raw ∧ tree'.rawDerivative v = .ok raw' ∧
      raw.same raw' = true) ∨
    ∃ fault fault', tree.rawDerivative v = .error fault ∧ tree'.rawDerivative v = .error fault'
  evaluated (value : α) (variableName : String) (environment : Bindings α) : number value →
    (∀ name w, environment name = some w → number w) →
      (∃ w w', tree.evaluate value variableName environment = .ok w ∧
        tree'.evaluate value variableName environment = .ok w' ∧ Scalar.same w w' = true) ∨
      ∃ cause cause', tree.evaluate value variableName environment = .error (.evaluation cause) ∧
        tree'.evaluate value variableName environment = .error (.evaluation cause')

theorem evaluate_of_equal_numbers [Scalar α] {number : α → Prop} {tree tree' : Expr α}
    {epsilon value : α} {environment : Bindings α}
    (numbers : AlikeNumbers epsilon fun a b : α => Scalar.same a b = true)
    (values : AlikeValues fun a b : α => Scalar.same a b = true)
    (itself : ∀ a, number a → Scalar.same a a = true) (built : tree.Built)
    (related : tree.Related (fun a b => Scalar.same a b = true) Eq tree')
    (isNumber : number value)
    (bound : ∀ name w, environment name = some w → number w) (variableName : String) :
    ValuedAlike (fun a b => Scalar.same a b = true)
      (tree.evaluate value variableName environment)
      (tree'.evaluate value variableName environment) := by
  have boundAlike (name : String) : Option.Rel (fun a b => Scalar.same a b = true)
      (environment name) (environment name) := by
    cases found : environment name with
    | none => exact .none
    | some w => exact .some (itself w (bound name w found))
  exact related.evaluate numbers values built (itself value isNumber) boundAlike variableName

/-- Where equality is respected by all that the engine asks of numbers, equal trees are
interchangeable. -/
theorem interchangeable_of_alike [Scalar α] {number : α → Prop} {tree tree' : Expr α}
    (texts : AlikeTexts fun a b : α => Scalar.same a b = true)
    (numbers : ∀ epsilon, AlikeNumbers epsilon fun a b : α => Scalar.same a b = true)
    (values : AlikeValues fun a b : α => Scalar.same a b = true)
    (itself : ∀ a, number a → Scalar.same a a = true)
    (built : tree.Built) (same : tree.same tree' = true) :
    Interchangeable number tree tree' := by
  have related := (Expr.matches_of_same same).related
  have names (odd : String) := alike_names_eq odd
  constructor
  · obtain ⟨text, written⟩ := Expr.infix_of_built built freePriority
    exact ⟨text, written, (related.infix_eq texts freePriority).symm.trans written⟩
  · obtain ⟨text, typeset⟩ := Expr.latex_of_built built freePriority
    exact ⟨text, typeset, (related.latex_eq texts freePriority).symm.trans typeset⟩
  · intro epsilon
    have free := Expr.constant_under_ln built.constant
    have sweeps := Simplify.sweeps_agree (numbers epsilon) (names "") sweepLimit 0 related free
    exact sweeps.imp fun result result' _ ends => ⟨ends.1.matches.same, ends.2⟩
  · intro v
    have itself : ∀ {x y : String}, x = y → (x = v ↔ y = v) := fun same => by rw [same]
    rcases Expr.raw_derivative_together (names v) (numbers _) itself related built with
      ⟨raw, raw', done, done', raws⟩ | ⟨fault, fault', failed, failed', -⟩
    · exact .inl ⟨raw, raw', done, done', raws.matches.same⟩
    · exact .inr ⟨fault, fault', failed, failed'⟩
  · intro value variableName environment isNumber bound
    have alike := evaluate_of_equal_numbers (numbers Scalar.tolerance) values itself built related
      isNumber bound variableName
    generalize tree.evaluate value variableName environment = outcome,
      tree'.evaluate value variableName environment = outcome' at alike ⊢
    cases alike with
    | value close => exact .inl ⟨_, _, rfl, rfl, close⟩
    | fault cause cause' => exact .inr ⟨cause, cause', rfl, rfl⟩

namespace Decimal.Library

section

variable {x y : Float} (same : Scalar.same x y = true)

include same

theorem infinite_of_same : x.isInf = y.isInf := by
  show x.toModel.unpack.isInf = y.toModel.unpack.isInf
  rcases (same_iff_form.1 same).1 with form | ⟨⟨sign, zero⟩, sign', zero'⟩
  · rw [form]
  · rw [zero, zero']
    rfl

theorem not_positive_of_same : x ≤ 0.0 ↔ y ≤ 0.0 := by
  have shown (z : Float) : decide (z ≤ 0.0) = z.toModel.unpack.le (.zero .positive) := by
    have below : decide (z ≤ 0.0) =
        decide (decide (z.toModel.unpack.le (0.0 : Float).toModel.unpack = true) = true) := rfl
    rw [below, Bool.decide_eq_true, Bool.decide_eq_true]
    rfl
  rw [← decide_eq_decide, shown, shown]
  rcases (same_iff_form.1 same).1 with form | ⟨⟨sign, zero⟩, sign', zero'⟩
  · rw [form]
  · rw [zero, zero']
    cases sign <;> cases sign' <;> rfl

theorem reciprocal_of_same (finite : x.isInf = false) (nonzero : ¬(x == 0.0) = true) :
    Scalar.same (1 / x) (1 / y) = true := by
  obtain ⟨alike, number⟩ := same_iff_form.1 same
  have one : (1 : Float).isFinite = true := by decide +kernel
  have inner : x.isFinite = true := by
    by_contra infinite
    rw [infinite_of_number number infinite] at finite
    cases finite
  have quotient : (1 / x : Float) = 1 / y := by
    rcases alike with form | ⟨zero, -⟩
    · rw [eq_of_form form]
    · exact absurd (is_zero_iff.2 zero) nonzero
  rw [← quotient, same_self_iff]
  show (1 / x).toModel.unpack.isNaN = false
  rcases quotient_of_finite one inner nonzero with whole | beyond
  · change (1 / x).toModel.unpack.isFinite = true at whole
    cases form : (1 / x).toModel.unpack with
    | notANumber =>
        rw [form] at whole
        cases whole
    | infinity | zero | finite => rfl
  · change (1 / x).toModel.unpack.isInf = true at beyond
    cases form : (1 / x).toModel.unpack with
    | notANumber =>
        rw [form] at beyond
        cases beyond
    | infinity | zero | finite => rfl

end

theorem near_zero_respects : nearZero.Respects where
  pow _ _ := by
    show Option.Rel _ (Double.finite? 1) (Double.finite? 1)
    have one : (1 : Float).isFinite = true := by decide +kernel
    rw [Double.finite?, if_pos one]
    exact .some (by decide +kernel)
  apply f {x y} same := by
    have one : Scalar.same (1 : Float) 1 = true := by decide +kernel
    have infinite := infinite_of_same same
    have bounded {g : Float → Float} (related : Scalar.same (g x) (g y) = true) :
        Option.Rel (fun x y : Float => Scalar.same x y = true) (Double.bounded g x)
          (Double.bounded g y) := by
      unfold Double.bounded
      rw [← infinite]
      split
      · exact .none
      · exact .some related
    cases f with
    | sin | tg => exact bounded same
    | cos => exact bounded one
    | ctg =>
        have zeros : (x == 0.0) = (y == 0.0) :=
          same_congr same (show Scalar.same (0.0 : Float) 0.0 = true by decide +kernel)
        show Option.Rel _
          (if x.isInf then none else if x == 0.0 then none else some (1 / x))
          (if y.isInf then none else if y == 0.0 then none else some (1 / y))
        rw [← infinite, ← zeros]
        split
        · exact .none
        · split
          · exact .none
          · rename_i finite nonzero
            exact .some (reciprocal_of_same same (by simpa using finite) nonzero)
    | ln =>
        have positive := not_positive_of_same same
        simp only [Library.apply, nearZero, ← infinite, ← positive]
        split
        · exact .none
        · split
          · exact .some same
          · exact .some (by decide +kernel)

def twoZeros (z : Float) : Expr Float :=
  .binary .add (.call "sin" (.num z)) (.binary .mul (.var "x") (.num z))

end Decimal.Library

end Fluxion
