import Fluxion.Proofs.Expr.Built
import Fluxion.Proofs.Outcome
import Fluxion.Simplify.Fold

/-!
Trees with the same nodes, whose numbers and names are related place by place. What the
engine asks of numbers and names it may answer alike for both of two related ones; then
it cannot tell related trees apart. The questions are gathered here, one structure for
numbers and one for names, and answered for whole trees.
-/

namespace Fluxion

open Outcome Scalar

variable {α : Type}

namespace Expr

/-- The same nodes over related numbers and variables. Operators and functions are the same. -/
inductive Related (numbers : α → α → Prop) (names : String → String → Prop) :
    Expr α → Expr α → Prop
  | missing : Related numbers names missing missing
  | num {a b : α} (close : numbers a b) : Related numbers names (num a) (num b)
  | var {x y : String} (close : names x y) : Related numbers names (var x) (var y)
  | binary (op : BinaryOp) {lhs rhs lhs' rhs' : Expr α} (left : Related numbers names lhs lhs')
      (right : Related numbers names rhs rhs') :
      Related numbers names (binary op lhs rhs) (binary op lhs' rhs')
  | signed (op : SignOp) {operand operand' : Expr α}
      (inner : Related numbers names operand operand') :
      Related numbers names (signed op operand) (signed op operand')
  | marked (op : MarkOp) {operand operand' : Expr α}
      (inner : Related numbers names operand operand') :
      Related numbers names (marked op operand) (marked op operand')
  | call (name : String) {arg arg' : Expr α} (inner : Related numbers names arg arg') :
      Related numbers names (call name arg) (call name arg')

end Expr

/-- The engine cannot tell related numbers apart: results are related where there are any, and
comparisons have the same outcome. -/
structure AlikeNumbers [Scalar α] (epsilon : α) (numbers : α → α → Prop) : Prop where
  whole (n : Nat) : numbers (ofNat n) (ofNat n)
  neg {a a' : α} : numbers a a' → numbers (Scalar.neg a) (Scalar.neg a')
  same {a a' b b' : α} : numbers a a' → numbers b b' → Scalar.same a b = Scalar.same a' b'
  near {a a' : α} (n : Nat) : numbers a a' → near epsilon a (ofNat n) = near epsilon a' (ofNat n)
  fold {a a' b b' : α} (op : BinaryOp) : numbers a a' → numbers b b' →
    Agree (Option.Rel numbers) (op.fold a b) (op.fold a' b')

/-- Related names are equal together, and empty together, and Euler's number together unless
the name is the odd one. -/
structure AlikeNames (odd : String) (names : String → String → Prop) : Prop where
  equal {x x' y y' : String} : names x x' → names y y' → (x = y ↔ x' = y')
  empty {x x' : String} : names x x' → x' = "" → x = ""
  euler {x x' : String} : names x x' → x ≠ odd → (x = Expr.eulerName ↔ x' = Expr.eulerName)

theorem alike_numbers_eq [Scalar α] (epsilon : α) : AlikeNumbers epsilon (Eq (α := α)) where
  whole n := rfl
  neg same := by rw [same]
  same left right := by rw [left, right]
  near n same := by rw [same]
  fold op left right := by
    subst left right
    rename_i a b
    cases op.fold a b with
    | error fault => exact .error fault
    | ok result =>
        refine .ok ?_
        cases result with
        | none => exact .none
        | some value => exact .some rfl

namespace Expr.Related

variable {numbers : α → α → Prop} {names : String → String → Prop} {tree tree' : Expr α}

theorem is_missing (related : Related numbers names tree tree') :
    tree.isMissing = tree'.isMissing := by
  cases related <;> rfl

theorem under_markers (related : Related numbers names tree tree') :
    Related numbers names tree.underMarkers tree'.underMarkers := by
  induction related with
  | missing => exact .missing
  | num close => exact .num close
  | var close => exact .var close
  | binary op left right => exact .binary op left right
  | signed op inner => exact .signed op inner
  | call name inner => exact .call name inner
  | marked op inner induction =>
      cases op with
      | prime => exact induction
      | other symbol => exact .marked _ inner

theorem built {odd : String} (alike : AlikeNames odd names)
    (related : Related numbers names tree tree') (built : tree.Built) : tree'.Built := by
  induction related with
  | missing => exact built
  | num close => exact built_num _
  | var close =>
      rw [built_var] at built ⊢
      intro empty
      exact built (alike.empty close empty)
  | binary op left right first second =>
      rw [built_binary] at built ⊢
      exact ⟨built.1, first built.2.1, second built.2.2⟩
  | signed op inner induction =>
      rw [built_signed] at built ⊢
      exact ⟨built.1, induction built.2⟩
  | marked op inner induction =>
      rw [built_marked] at built ⊢
      exact ⟨built.1, induction built.2⟩
  | call name inner induction =>
      rw [built_call] at built ⊢
      exact ⟨built.1, induction built.2⟩

theorem is_constant {v w : String} (itself : ∀ {x y}, names x y → (x = v ↔ y = w))
    (related : Related numbers names tree tree') : tree.isConstant v = tree'.isConstant w := by
  induction related with
  | missing | num close => rfl
  | @var x y close =>
      have together := itself close
      simp only [isConstant]
      grind
  | binary op left right first second => rw [isConstant, isConstant, first, second]
  | signed op inner induction | marked op inner induction | call name inner induction =>
      exact induction

theorem same [Scalar α] {epsilon : α} {odd : String} {other other' : Expr α}
    (alikeNumbers : AlikeNumbers epsilon numbers) (alikeNames : AlikeNames odd names)
    (related : Related numbers names tree tree') (related' : Related numbers names other other') :
    tree.same other = tree'.same other' := by
  induction related generalizing other other' with
  | missing => cases related' <;> rfl
  | num close =>
      cases related' with
      | num close' => exact alikeNumbers.same close close'
      | _ => rfl
  | @var x x' close =>
      cases related' with
      | @var y y' close' =>
          have together := alikeNames.equal close close'
          simp only [Expr.same]
          grind
      | _ => rfl
  | binary op left right first second =>
      cases related' with
      | binary op' left' right' => simp only [Expr.same, first left', second right']
      | _ => rfl
  | signed op inner induction =>
      cases related' with
      | signed op' inner' => simp only [Expr.same, induction inner']
      | _ => rfl
  | marked op inner induction =>
      cases related' with
      | marked op' inner' => simp only [Expr.same, induction inner']
      | _ => rfl
  | call name inner induction =>
      cases related' with
      | call name' inner' => simp only [Expr.same, induction inner']
      | _ => rfl

end Expr.Related

end Fluxion
