import Fluxion.Proofs.Scalar.Zero
import Fluxion.Proofs.Simplify.Folding

/-!
Trees that are zero by their form: zeros, their signs, sums and differences, and products
and quotients with such a factor or dividend. What stands beside a vanishing factor may
have no value at all. Folding keeps the form, and one pass of simplification leaves a zero.
Main statement: a vanishing tree is optimized to a zero.
-/

namespace Fluxion

open Scalar Simplify

variable {α : Type} [Scalar α] {epsilon : α} {tree : Expr α}

namespace Expr

inductive Vanishes : Expr α → Prop
  | number {value : α} (zero : IsZero value) : Vanishes (num value)
  | sign (op : SignOp) {operand : Expr α} (inner : Vanishes operand) : Vanishes (signed op operand)
  | sum {lhs rhs : Expr α} (left : Vanishes lhs) (right : Vanishes rhs) :
      Vanishes (binary .add lhs rhs)
  | difference {lhs rhs : Expr α} (left : Vanishes lhs) (right : Vanishes rhs) :
      Vanishes (binary .sub lhs rhs)
  | leftFactor {lhs : Expr α} (left : Vanishes lhs) (rhs : Expr α) : Vanishes (binary .mul lhs rhs)
  | rightFactor (lhs : Expr α) {rhs : Expr α} (right : Vanishes rhs) :
      Vanishes (binary .mul lhs rhs)
  | dividend {lhs : Expr α} (left : Vanishes lhs) (rhs : Expr α) : Vanishes (binary .div lhs rhs)

theorem Vanishes.closed_value (zeros : Zeros epsilon) (vanishes : tree.Vanishes) {value : α}
    (closed : tree.closedValue? = some value) : IsZero value := by
  induction vanishes generalizing value with
  | number zero =>
      cases closed
      exact zero
  | sign => exact absurd (closed_value_some.1 closed).1 id
  | sum _ _ left right =>
      obtain ⟨a, b, valueLeft, valueRight, folds⟩ := closed_value_binary.1 closed
      exact zeros.add (left valueLeft) (right valueRight) (Except.ok.inj folds)
  | difference _ _ left right =>
      obtain ⟨a, b, valueLeft, valueRight, folds⟩ := closed_value_binary.1 closed
      exact zeros.sub (left valueLeft) (right valueRight) (Except.ok.inj folds)
  | leftFactor _ rhs left =>
      obtain ⟨a, b, valueLeft, -, folds⟩ := closed_value_binary.1 closed
      exact zeros.zero_mul (left valueLeft) (Except.ok.inj folds)
  | rightFactor lhs _ right =>
      obtain ⟨a, b, -, valueRight, folds⟩ := closed_value_binary.1 closed
      exact zeros.mul_zero (right valueRight) (Except.ok.inj folds)
  | dividend _ rhs left =>
      obtain ⟨a, b, valueLeft, -, folds⟩ := closed_value_binary.1 closed
      exact zeros.zero_div (left valueLeft) (Except.ok.inj folds)

theorem Vanishes.collapse_node (zeros : Zeros epsilon) {op : BinaryOp} {lhs rhs : Expr α}
    (vanishes : (binary op lhs rhs).Vanishes)
    (unfolded : (binary op lhs.collapse rhs.collapse).Vanishes) :
    (binary op lhs rhs).collapse.Vanishes := by
  cases closed : (binary op lhs rhs).closedValue? with
  | some value =>
      rw [collapse_of_value closed]
      exact .number (vanishes.closed_value zeros closed)
  | none =>
      rw [collapse_binary closed]
      exact unfolded

theorem Vanishes.collapse (zeros : Zeros epsilon) (vanishes : tree.Vanishes) :
    tree.collapse.Vanishes := by
  induction vanishes with
  | number zero => exact .number zero
  | sign op _ inner => exact .sign op inner
  | sum left right first second => exact (sum left right).collapse_node zeros (.sum first second)
  | difference left right first second =>
      exact (difference left right).collapse_node zeros (.difference first second)
  | leftFactor left rhs first =>
      exact (left.leftFactor rhs).collapse_node zeros (first.leftFactor _)
  | rightFactor lhs right second =>
      exact (right.rightFactor lhs).collapse_node zeros (second.rightFactor _)
  | dividend left rhs first => exact (left.dividend rhs).collapse_node zeros (first.dividend _)

end Expr

open Fluxion.Expr

namespace Simplify

def ZeroPass (outcome : Except Fault (Pass α)) : Prop :=
  ∃ value changed, outcome = .ok ⟨.num value, changed⟩ ∧ IsZero value

theorem zero_pass_binary {op : BinaryOp} {lhs rhs : Expr α} {left right : Pass α} {value : α}
    (valid : (Expr.binary op lhs rhs).Valid) (doneLeft : simplify epsilon lhs = .ok left)
    (doneRight : simplify epsilon rhs = .ok right)
    (reduces : reduceBinary epsilon op left.tree right.tree = some (.num value))
    (zero : IsZero value) : ZeroPass (simplify epsilon (.binary op lhs rhs)) := by
  refine ⟨value, true, ?_, zero⟩
  simp [simplify, requireChild, valid.2.1.present, valid.2.2.present, doneLeft, doneRight, reduces,
    settle]

/-- A factor that is a zero decides the product, also beside a one. -/
theorem reduce_product_zero (zeros : Zeros epsilon) {a : α} (zero : IsZero a) (other : Expr α) :
    (∃ value, reduceProduct epsilon (.num a) other = some (.num value) ∧ IsZero value) ∧
      ∃ value, reduceProduct epsilon other (.num a) = some (.num value) ∧ IsZero value := by
  have notOne : isValue epsilon (.num a) 1 = false := zeros.not_near_one zero
  have nothing : isValue epsilon (.num a) 0 = true := zeros.near_zero zero
  by_cases one : isValue epsilon other 1 = true
  · exact ⟨⟨a, by simp [reduceProduct, notOne, one], zero⟩,
      ⟨a, by simp [reduceProduct, one], zero⟩⟩
  · exact ⟨⟨_, by simp [reduceProduct, notOne, one, nothing, wholeNumber], zeros.whole⟩,
      ⟨_, by simp [reduceProduct, notOne, one, nothing, wholeNumber], zeros.whole⟩⟩

theorem simplify_of_vanishing (zeros : Zeros epsilon) (vanishes : tree.Vanishes)
    (valid : tree.Valid) : ZeroPass (simplify epsilon tree) := by
  induction vanishes with
  | number zero => exact ⟨_, _, rfl, zero⟩
  | sign op vanishes inner =>
      obtain ⟨value, changed, done, zero⟩ := inner valid.2
      obtain ⟨value', reduces, zero'⟩ :
          ∃ value', reduceSigned op (.num value) = some (.num value') ∧ IsZero value' := by
        unfold reduceSigned
        split
        · exact ⟨value, rfl, zero⟩
        · exact ⟨neg value, rfl, zeros.neg zero⟩
      refine ⟨value', true, ?_, zero'⟩
      simp [simplify, requireChild, valid.2.present, done, reduces, settle]
  | sum _ _ left right =>
      obtain ⟨a, changed, doneLeft, zero⟩ := left valid.2.1
      obtain ⟨b, changed', doneRight, zero'⟩ := right valid.2.2
      refine zero_pass_binary valid doneLeft doneRight ?_ zero'
      simp [reduceBinary, reduceSum, isValue, zeros.near_zero zero]
  | difference _ _ left right =>
      obtain ⟨a, changed, doneLeft, zero⟩ := left valid.2.1
      obtain ⟨b, changed', doneRight, zero'⟩ := right valid.2.2
      refine zero_pass_binary valid doneLeft doneRight ?_ zero
      simp [reduceBinary, reduceDifference, isValue, zeros.near_zero zero']
  | leftFactor _ rhs left =>
      obtain ⟨a, changed, doneLeft, zero⟩ := left valid.2.1
      obtain ⟨other, doneRight, -⟩ := (simplify_applies epsilon).faithful valid.2.2
      obtain ⟨⟨value, reduces, zero'⟩, -⟩ := reduce_product_zero zeros zero other.tree
      exact zero_pass_binary valid doneLeft doneRight reduces zero'
  | rightFactor lhs _ right =>
      obtain ⟨a, changed, doneRight, zero⟩ := right valid.2.2
      obtain ⟨other, doneLeft, -⟩ := (simplify_applies epsilon).faithful valid.2.1
      obtain ⟨-, value, reduces, zero'⟩ := reduce_product_zero zeros zero other.tree
      exact zero_pass_binary valid doneLeft doneRight reduces zero'
  | dividend _ rhs left =>
      obtain ⟨a, changed, doneLeft, zero⟩ := left valid.2.1
      obtain ⟨other, doneRight, -⟩ := (simplify_applies epsilon).faithful valid.2.2
      refine zero_pass_binary valid doneLeft doneRight ?_ zeros.whole
      simp [reduceBinary, reduceQuotient, isValue, zeros.near_zero zero, wholeNumber]

/-- A vanishing tree is optimized to a zero, whatever else it holds. -/
theorem run_of_vanishing (zeros : Zeros epsilon) (vanishes : tree.Vanishes) (valid : tree.Valid) :
    ∃ zero sweeps, run epsilon tree = .ok ⟨.num zero, sweeps⟩ ∧ IsZero zero := by
  obtain ⟨changed, folded⟩ := fold_collapses valid
  obtain ⟨zero, changed', simplified, isZero⟩ :=
    simplify_of_vanishing zeros (vanishes.collapse zeros) valid.collapse
  have swept : sweep epsilon tree = .ok ⟨.num zero, changed || changed'⟩ := by
    simp [sweep, folded, simplified]
  obtain ⟨sweeps, done⟩ := run_of_sweep swept
  exact ⟨zero, sweeps, done, isZero⟩

end Simplify

end Fluxion
