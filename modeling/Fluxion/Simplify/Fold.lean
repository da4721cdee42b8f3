import Fluxion.Expr.Build

/-!
Constant folding: an operator between two numbers becomes the number that it
yields, if it yields a finite one. One pass works from the leaves to the root and
says whether it changed anything.
-/

namespace Fluxion

variable {α : Type} [Scalar α]

def BinaryOp.fold (op : BinaryOp) (lhs rhs : α) : Except Fault (Option α) :=
  match op with
  | .add => pure (Scalar.add lhs rhs)
  | .sub => pure (Scalar.sub lhs rhs)
  | .mul => pure (Scalar.mul lhs rhs)
  | .div => pure (Scalar.div lhs rhs)
  | .pow => pure (Scalar.pow lhs rhs)
  | .other symbol => throw (.simplification (.unknownOperator symbol))

namespace Simplify

structure Pass (α : Type) where
  tree : Expr α
  changed : Bool

def requireChild (slot kind : String) (child : Expr α) : Except Fault Unit :=
  if child.isMissing then throw (.simplification (.emptyChild slot kind)) else pure ()

def foldNode (op : BinaryOp) (lhs rhs : Expr α) (changed : Bool) : Except Fault (Pass α) :=
  match lhs, rhs with
  | .num a, .num b => do
      match ← op.fold a b with
      | some value => pure ⟨.num value, true⟩
      | none => pure ⟨.binary op lhs rhs, changed⟩
  | _, _ => pure ⟨.binary op lhs rhs, changed⟩

def foldConstants : Expr α → Except Fault (Pass α)
  | .missing => pure ⟨.missing, false⟩
  | .num value => pure ⟨.num value, false⟩
  | .var name => pure ⟨.var name, false⟩
  | .binary op lhs rhs => do
      requireChild "lhs" "BinaryOp" lhs
      let left ← foldConstants lhs
      requireChild "rhs" "BinaryOp" rhs
      let right ← foldConstants rhs
      foldNode op left.tree right.tree (left.changed || right.changed)
  | .signed op operand => do
      requireChild "operand" "PrefixOp" operand
      let inner ← foldConstants operand
      pure ⟨.signed op inner.tree, inner.changed⟩
  | .marked op operand => do
      requireChild "operand" "PostfixOp" operand
      let inner ← foldConstants operand
      pure ⟨.marked op inner.tree, inner.changed⟩
  | .call name arg => do
      requireChild "arg" "Call" arg
      let inner ← foldConstants arg
      pure ⟨.call name inner.tree, inner.changed⟩

end Simplify

end Fluxion
