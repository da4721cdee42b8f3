import Fluxion.Expr.Basic

/-!
Equality of trees as a relation, so that what holds of equal trees can be proved along it.
Main statement: trees are the same exactly if they have the same nodes and their numbers
count as equal, place by place.
-/

namespace Fluxion.Expr

variable {α : Type} [Scalar α]

inductive Matches : Expr α → Expr α → Prop
  | missing : Matches missing missing
  | num {a b : α} (close : Scalar.same a b = true) : Matches (num a) (num b)
  | var (name : String) : Matches (var name) (var name)
  | binary (op : BinaryOp) {lhs rhs lhs' rhs' : Expr α} (left : Matches lhs lhs')
      (right : Matches rhs rhs') : Matches (binary op lhs rhs) (binary op lhs' rhs')
  | signed (op : SignOp) {operand operand' : Expr α} (inner : Matches operand operand') :
      Matches (signed op operand) (signed op operand')
  | marked (op : MarkOp) {operand operand' : Expr α} (inner : Matches operand operand') :
      Matches (marked op operand) (marked op operand')
  | call (name : String) {arg arg' : Expr α} (inner : Matches arg arg') :
      Matches (call name arg) (call name arg')

theorem matches_of_same {tree tree' : Expr α} (same : tree.same tree' = true) :
    Matches tree tree' := by
  induction tree generalizing tree' with
  | missing =>
      cases tree' with
      | missing => exact .missing
      | _ => cases same
  | num a =>
      cases tree' with
      | num b => exact .num same
      | _ => cases same
  | var name =>
      cases tree' with
      | var name' =>
          cases eq_of_beq same
          exact .var name
      | _ => cases same
  | binary op lhs rhs left right =>
      cases tree' with
      | binary op' lhs' rhs' =>
          simp only [Expr.same, Bool.and_eq_true, beq_iff_eq] at same
          obtain ⟨⟨rfl, sameLeft⟩, sameRight⟩ := same
          exact .binary op (left sameLeft) (right sameRight)
      | _ => cases same
  | signed op operand inner =>
      cases tree' with
      | signed op' operand' =>
          simp only [Expr.same, Bool.and_eq_true, beq_iff_eq] at same
          obtain ⟨rfl, sameInner⟩ := same
          exact .signed op (inner sameInner)
      | _ => cases same
  | marked op operand inner =>
      cases tree' with
      | marked op' operand' =>
          simp only [Expr.same, Bool.and_eq_true, beq_iff_eq] at same
          obtain ⟨rfl, sameInner⟩ := same
          exact .marked op (inner sameInner)
      | _ => cases same
  | call name arg inner =>
      cases tree' with
      | call name' arg' =>
          simp only [Expr.same, Bool.and_eq_true, beq_iff_eq] at same
          obtain ⟨rfl, sameInner⟩ := same
          exact .call name (inner sameInner)
      | _ => cases same

theorem Matches.same {tree tree' : Expr α} (alike : Matches tree tree') :
    tree.same tree' = true := by
  induction alike with
  | missing => rfl
  | num close => exact close
  | var name => exact beq_self_eq_true name
  | binary op left right sameLeft sameRight => simp [Expr.same, sameLeft, sameRight]
  | signed op inner sameInner | marked op inner sameInner | call name inner sameInner =>
      simp [Expr.same, sameInner]

end Fluxion.Expr
