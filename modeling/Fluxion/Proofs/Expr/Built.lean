import Fluxion.Expr.Build
import Fluxion.Proofs.Outcome

/-!
The trees that checked construction makes. Nothing in such a tree is missing, no
operator is foreign and no name is empty, and conversely a tree with these three
properties can be built from its leaves. A chain of derivative markers may still
stand over anything; that it ends in a call is a property of its own.
-/

namespace Fluxion.Expr

open Outcome

variable {α : Type}

/-- A tree that results from the construction functions alone. -/
inductive Built : Expr α → Prop
  | ofNumber (value : α) : Built (num value)
  | ofVariable {name : String} {tree : Expr α} (made : makeVariable name = .ok tree) : Built tree
  | ofBinary {op : BinaryOp} {lhs rhs tree : Expr α} (left : Built lhs) (right : Built rhs)
      (made : makeBinary op lhs rhs = .ok tree) : Built tree
  | ofSigned {op : SignOp} {operand tree : Expr α} (inner : Built operand)
      (made : makeSigned op operand = .ok tree) : Built tree
  | ofMarked {op : MarkOp} {operand tree : Expr α} (inner : Built operand)
      (made : makeMarked op operand = .ok tree) : Built tree
  | ofCall {name : String} {arg tree : Expr α} (inner : Built arg)
      (made : makeCall name arg = .ok tree) : Built tree

theorem make_variable_ok {name : String} {tree : Expr α} :
    makeVariable name = .ok tree ↔ name ≠ "" ∧ var name = tree := by
  unfold makeVariable
  split <;> simp_all

theorem make_binary_ok {op : BinaryOp} {lhs rhs tree : Expr α} :
    makeBinary op lhs rhs = .ok tree ↔
      lhs.isMissing = false ∧ rhs.isMissing = false ∧ op.isKnown = true ∧
        binary op lhs rhs = tree := by
  unfold makeBinary
  cases lhs.isMissing <;> cases rhs.isMissing <;> cases op.isKnown <;>
    simp

theorem make_signed_ok {op : SignOp} {operand tree : Expr α} :
    makeSigned op operand = .ok tree ↔
      operand.isMissing = false ∧ op.isKnown = true ∧ signed op operand = tree := by
  unfold makeSigned
  cases operand.isMissing <;> cases op.isKnown <;>
    simp

theorem make_marked_ok {op : MarkOp} {operand tree : Expr α} :
    makeMarked op operand = .ok tree ↔
      operand.isMissing = false ∧ op.isKnown = true ∧ marked op operand = tree := by
  unfold makeMarked
  cases operand.isMissing <;> cases op.isKnown <;>
    simp

theorem make_call_ok {name : String} {arg tree : Expr α} :
    makeCall name arg = .ok tree ↔ name ≠ "" ∧ arg.isMissing = false ∧ call name arg = tree := by
  unfold makeCall
  split
  · simp_all
  · cases arg.isMissing <;>
      simp_all

def PartsBuilt : Expr α → Prop
  | missing => False
  | num _ => True
  | var name => name ≠ ""
  | binary op lhs rhs => op.isKnown = true ∧ Built lhs ∧ Built rhs
  | signed op operand => op.isKnown = true ∧ Built operand
  | marked op operand => op.isKnown = true ∧ Built operand
  | call name arg => name ≠ "" ∧ Built arg

theorem Built.parts {tree : Expr α} (built : Built tree) : tree.PartsBuilt := by
  cases built with
  | ofNumber value => trivial
  | ofVariable made =>
      obtain ⟨named, rfl⟩ := make_variable_ok.1 made
      exact named
  | ofBinary left right made =>
      obtain ⟨-, -, known, rfl⟩ := make_binary_ok.1 made
      exact ⟨known, left, right⟩
  | ofSigned inner made =>
      obtain ⟨-, known, rfl⟩ := make_signed_ok.1 made
      exact ⟨known, inner⟩
  | ofMarked inner made =>
      obtain ⟨-, known, rfl⟩ := make_marked_ok.1 made
      exact ⟨known, inner⟩
  | ofCall inner made =>
      obtain ⟨named, -, rfl⟩ := make_call_ok.1 made
      exact ⟨named, inner⟩

theorem Built.not_missing {tree : Expr α} (built : Built tree) : tree.isMissing = false := by
  have parts := built.parts
  cases tree with
  | missing => exact parts.elim
  | _ => rfl

theorem built_iff_parts (tree : Expr α) : Built tree ↔ tree.PartsBuilt := by
  constructor
  · exact Built.parts
  · intro parts
    cases tree with
    | missing => exact parts.elim
    | num value => exact .ofNumber value
    | var name => exact .ofVariable (make_variable_ok.2 ⟨parts, rfl⟩)
    | binary op lhs rhs =>
        obtain ⟨known, left, right⟩ := parts
        exact .ofBinary left right
          (make_binary_ok.2 ⟨left.not_missing, right.not_missing, known, rfl⟩)
    | signed op operand =>
        obtain ⟨known, inner⟩ := parts
        exact .ofSigned inner (make_signed_ok.2 ⟨inner.not_missing, known, rfl⟩)
    | marked op operand =>
        obtain ⟨known, inner⟩ := parts
        exact .ofMarked inner (make_marked_ok.2 ⟨inner.not_missing, known, rfl⟩)
    | call name arg =>
        obtain ⟨named, inner⟩ := parts
        exact .ofCall inner (make_call_ok.2 ⟨named, inner.not_missing, rfl⟩)

@[simp] theorem built_missing : ¬ Built (missing : Expr α) := (built_iff_parts _).1

@[simp] theorem built_num (value : α) : Built (num value) := .ofNumber value

@[simp] theorem built_var (name : String) : Built (var name : Expr α) ↔ name ≠ "" :=
  built_iff_parts _

@[simp] theorem built_binary (op : BinaryOp) (lhs rhs : Expr α) :
    Built (binary op lhs rhs) ↔ op.isKnown = true ∧ Built lhs ∧ Built rhs :=
  built_iff_parts _

@[simp] theorem built_signed (op : SignOp) (operand : Expr α) :
    Built (signed op operand) ↔ op.isKnown = true ∧ Built operand :=
  built_iff_parts _

@[simp] theorem built_marked (op : MarkOp) (operand : Expr α) :
    Built (marked op operand) ↔ op.isKnown = true ∧ Built operand :=
  built_iff_parts _

@[simp] theorem built_call (name : String) (arg : Expr α) :
    Built (call name arg) ↔ name ≠ "" ∧ Built arg :=
  built_iff_parts _

theorem whole_eq (tree : Expr α) :
    tree.whole = if tree.isWhole then .ok tree else .error (.build .incompleteCopy) := by
  induction tree with
  | missing | num value | var name => rfl
  | binary op lhs rhs left right =>
      rw [whole, left, right, isWhole]
      cases lhs.isWhole with
      | false => rfl
      | true => cases rhs.isWhole <;> rfl
  | signed op operand inner | marked op operand inner | call name operand inner =>
      rw [whole, inner, isWhole]
      cases operand.isWhole <;> rfl

theorem Built.whole {tree : Expr α} (built : Built tree) : tree.isWhole = true := by
  induction tree with
  | missing => simp at built
  | num value => rfl
  | var name => rfl
  | binary op lhs rhs left right =>
      rw [built_binary] at built
      simp [isWhole, left built.2.1, right built.2.2]
  | signed op operand inner =>
      rw [built_signed] at built
      simp [isWhole, inner built.2]
  | marked op operand inner =>
      rw [built_marked] at built
      simp [isWhole, inner built.2]
  | call name arg inner =>
      rw [built_call] at built
      simp [isWhole, inner built.2]

end Fluxion.Expr
