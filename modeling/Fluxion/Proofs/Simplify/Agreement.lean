import Fluxion.Proofs.Expr.Binding
import Fluxion.Proofs.Simplify.Normal
import Fluxion.Proofs.Simplify.Preservation
import Fluxion.Report

/-!
The two values of an expression at a point. One is evaluated, the other is what remains
of the expression when the point is put in and the result optimized. Main statements:
numbers joined by operators alone are folded to their value, whatever the tolerance; any
tree that is optimized to a number is optimized to its value, if comparisons are sharp
and nothing raises zero to zero. Between these two stands a number that only becomes
one while rules are applied: it counts as zero before it can be multiplied.
-/

namespace Fluxion

open Outcome Scalar Reading

variable {α : Type}

namespace Expr

def Numeric : Expr α → Prop
  | num _ => True
  | binary _ lhs rhs => lhs.Numeric ∧ rhs.Numeric
  | missing | var _ | signed _ _ | marked _ _ | call _ _ => False

instance decidableNumeric : (tree : Expr α) → Decidable tree.Numeric
  | num _ => isTrue trivial
  | binary _ lhs rhs =>
      have := decidableNumeric lhs
      have := decidableNumeric rhs
      inferInstanceAs (Decidable (lhs.Numeric ∧ rhs.Numeric))
  | missing | var _ | signed _ _ | marked _ _ | call _ _ => isFalse id

def number? : Expr α → Option α
  | num value => some value
  | _ => none

theorem number_some {tree : Expr α} {value : α} (found : tree.number? = some value) :
    tree = num value := by
  cases tree with
  | num other => rw [Option.some.inj found]
  | _ => cases found

theorem Numeric.not_missing {tree : Expr α} (numeric : tree.Numeric) : tree.isMissing = false := by
  cases tree with
  | missing => cases numeric
  | _ => rfl

variable {variableName : String} {point : α}

theorem whole_of_numeric {tree : Expr α} (numeric : (tree.fillIn point variableName).Numeric) :
    tree.isWhole = true := by
  induction tree with
  | missing | signed op operand | marked op operand | call name arg => cases numeric
  | num value | var name => rfl
  | binary op lhs rhs left right =>
      rw [isWhole, left numeric.1, right numeric.2]
      rfl

theorem built_fill_in {tree : Expr α} (built : tree.Built) :
    (tree.fillIn point variableName).Built := by
  induction tree with
  | missing | num value => exact built
  | var name =>
      rw [fillIn]
      split
      · exact built_num point
      · exact built
  | binary op lhs rhs left right =>
      obtain ⟨known, builtLeft, builtRight⟩ := (built_binary _ _ _).1 built
      exact (built_binary _ _ _).2 ⟨known, left builtLeft, right builtRight⟩
  | signed op operand inner =>
      obtain ⟨known, builtInner⟩ := (built_signed _ _).1 built
      exact (built_signed _ _).2 ⟨known, inner builtInner⟩
  | marked op operand inner =>
      obtain ⟨known, builtInner⟩ := (built_marked _ _).1 built
      exact (built_marked _ _).2 ⟨known, inner builtInner⟩
  | call name arg inner =>
      obtain ⟨named, builtInner⟩ := (built_call _ _).1 built
      exact (built_call _ _).2 ⟨named, inner builtInner⟩

variable [Scalar α]

theorem evaluate_fill_in (tree : Expr α) :
    (tree.fillIn point variableName).evaluateIn Bindings.constants =
      tree.evaluate point variableName Bindings.none := by
  apply evaluate_in_fill_in
  · exact if_pos rfl
  · intro name differs
    exact (if_neg differs).symm

end Expr

variable [Scalar α]

namespace Simplify

variable {epsilon w : α} {tree : Expr α} {bindings : Bindings α}

theorem fold_of_value (numeric : tree.Numeric) (evaluates : tree.evaluateIn bindings = .ok w) :
    ∃ changed, foldConstants tree = .ok ⟨.num w, changed⟩ := by
  induction tree generalizing w with
  | missing | var name | signed op operand | marked op operand | call name arg => cases numeric
  | num value =>
      cases evaluates
      exact ⟨false, rfl⟩
  | binary op lhs rhs left right =>
      obtain ⟨a, b, valueLeft, valueRight, folded⟩ := evaluate_binary.1 evaluates
      obtain ⟨changed, foldedLeft⟩ := left numeric.1 valueLeft
      obtain ⟨changed', foldedRight⟩ := right numeric.2 valueRight
      refine ⟨true, ?_⟩
      simp [foldConstants, requireChild, numeric.1.not_missing, numeric.2.not_missing, foldedLeft,
        foldedRight, foldNode, folded]

theorem run_of_sweep {changed : Bool} (swept : sweep epsilon tree = .ok ⟨.num w, changed⟩) :
    ∃ sweeps, run epsilon tree = .ok ⟨.num w, sweeps⟩ := by
  cases changed with
  | false => exact ⟨1, sweeps_of_still swept⟩
  | true =>
      have still : sweep epsilon (.num w) = .ok ⟨.num w, false⟩ := rfl
      exact ⟨2, (sweeps_of_change swept).trans (sweeps_of_still still)⟩

theorem run_of_fold {changed : Bool} (folded : foldConstants tree = .ok ⟨.num w, changed⟩) :
    ∃ sweeps, run epsilon tree = .ok ⟨.num w, sweeps⟩ := by
  have swept : sweep epsilon tree = .ok ⟨.num w, changed⟩ := by
    simp [sweep, folded, simplify]
  exact run_of_sweep swept

end Simplify

section

variable {text variableName : String} {tree : Expr α} {point u w : α}

/-- The two answers agree where putting the point in leaves only numbers and operators. -/
theorem reported_value_of_numeric (parsed : parse text = .ok tree)
    (numeric : (tree.fillIn point variableName).Numeric)
    (evaluates : tree.evaluate point variableName Bindings.none = .ok w) :
    tree.optimizedAt point variableName = .ok (.num w) ∧
      reportValue text point variableName =
        .ok ⟨text, Scalar.plainText w, Scalar.plainText w, some w⟩ := by
  have filled := (Expr.evaluate_fill_in tree).trans evaluates
  obtain ⟨changed, folded⟩ := Simplify.fold_of_value numeric filled
  obtain ⟨sweeps, done⟩ : ∃ sweeps, Simplify.run tolerance (tree.fillIn point variableName) =
      .ok ⟨.num w, sweeps⟩ := Simplify.run_of_fold folded
  have optimized : tree.optimizedAt point variableName = .ok (.num w) := by
    simp [Expr.optimizedAt, Expr.substitute, Expr.whole_of_numeric numeric, Expr.optimize, done]
  have written : writtenNumber w freePriority = Scalar.plainText w := by
    simp [writtenNumber, bracket]
  refine ⟨optimized, ?_⟩
  simp [reportValue, parsed, optimized, evaluates, Expr.toInfix, Expr.toLatex, Expr.infixAt,
    Expr.latexAt, written]

/-- With sharp comparisons and no zero raised to zero, whatever is optimized to a number is
optimized to the value of the tree. -/
theorem optimized_at_alike (identities : Identities α)
    (sharp : ∀ a b : α, near tolerance a b = true → same a b = true) (built : tree.Built)
    (regular : (evaluation Bindings.constants).NoZeroToZero Alike
      (tree.fillIn point variableName))
    (evaluates : tree.evaluate point variableName Bindings.none = .ok w)
    (optimized : tree.optimizedAt point variableName = .ok (.num u)) : Alike u w := by
  simp only [Expr.optimizedAt, Expr.substitute, if_pos built.whole, Expr.optimize, bind_eq_ok,
    pure_eq_ok] at optimized
  obtain ⟨filled, rfl, result, done, remains⟩ := optimized
  have lawful := evaluation_lawful identities (Bindings.constants (α := α)) rfl
  have sharpReading : Simplify.Sharp (evaluation Bindings.constants) Alike (tolerance : α) :=
    fun a b near => .inr (sharp a b near)
  have valued := evaluate_iff_value.1 ((Expr.evaluate_fill_in tree).trans evaluates)
  obtain ⟨⟨u', valued', close⟩, -⟩ := (Simplify.run_rewrites done).value lawful sharpReading
    (Expr.built_fill_in built) valued regular
  rw [remains] at valued'
  obtain ⟨-, rfl⟩ := value_num.1 valued'
  exact close

end

theorem reported_value_of_numeric_of_quotient :
    ∃ (tree : Expr Float) (w : Float), parse "(x+2)*x/4" = .ok tree ∧
      tree.evaluate 6 "x" Bindings.none = .ok w ∧ tree.optimizedAt 6 "x" = .ok (.num w) ∧
      reportValue "(x+2)*x/4" 6 "x" = .ok ⟨"(x+2)*x/4", "12", "12", some w⟩ := by
  have answers : ((do
      let tree : Expr Float ← parse "(x+2)*x/4"
      let w ← tree.evaluate 6 "x" Bindings.none
      return (decide (tree.fillIn 6 "x").Numeric, Scalar.plainText w)) :
        Except Fault (Bool × String)).toOption = some (true, "12") := by
    decide +kernel
  simp only [to_option_eq_some, bind_eq_ok, pure_eq_ok, Prod.mk.injEq] at answers
  obtain ⟨tree, parsed, w, evaluates, numeric, written⟩ := answers
  have reported := reported_value_of_numeric parsed (of_decide_eq_true numeric) evaluates
  rw [written] at reported
  exact ⟨tree, w, parsed, evaluates, reported⟩

/-- Ten million times the opposite of a ten millionth is minus one, but is optimized to
zero: the opposite is a number only when the product is simplified, and small. -/
theorem small_opposite_optimized_to_zero :
    ∃ (tree : Expr Float) (u w : Float), parse "-(1/10000000)*10000000" = .ok tree ∧
      tree.optimizedAt 0 "x" = .ok (.num u) ∧
      tree.evaluate 0 "x" Bindings.none = .ok w ∧ near tolerance u w = false := by
  have answers : ((do
      let tree : Expr Float ← parse "-(1/10000000)*10000000"
      let optimized ← tree.optimizedAt 0 "x"
      let w ← tree.evaluate 0 "x" Bindings.none
      return optimized.number?.map (near tolerance · w)) :
        Except Fault (Option Bool)).toOption = some (some false) := by
    decide +kernel
  simp only [to_option_eq_some, bind_eq_ok, pure_eq_ok, Option.map_eq_some_iff] at answers
  obtain ⟨tree, parsed, optimized, done, w, evaluates, u, found, far⟩ := answers
  rw [Expr.number_some found] at done
  exact ⟨tree, u, w, parsed, done, evaluates, far⟩

end Fluxion
