import Fluxion.Notation.Priority

/-!
Infix notation, the notation that the grammar reads. Every operator groups from
the left, so only a right operand needs brackets at equal priority.
-/

namespace Fluxion.Expr

variable {α : Type} [Scalar α]

/-- Sums and differences are spaced, the tighter operators are not. -/
def joined (op : BinaryOp) (lhs rhs : String) : String :=
  match op with
  | .add | .sub => lhs ++ " " ++ op.symbol ++ " " ++ rhs
  | _ => lhs ++ op.symbol ++ rhs

def infixAt (floor : Int) : Expr α → Except Fault String
  | missing => throw .nothingToWrite
  | num value => pure (writtenNumber value floor)
  | var name => pure name
  | call name arg => do return name ++ "(" ++ (← arg.infixAt freePriority) ++ ")"
  | signed op operand => do
      let text := op.symbol ++ (← operand.infixAt tightPriority)
      return bracket (floor != freePriority) "(" text ")"
  | marked op operand => do return (← operand.infixAt tightPriority) ++ op.symbol
  | binary op lhs rhs => do
      let priority ← op.priority
      let left ← lhs.infixAt priority
      let right ← rhs.infixAt (priority + 1)
      return bracket (priority < floor) "(" (joined op left right) ")"

def toInfix (tree : Expr α) : Except Fault String := tree.infixAt freePriority

end Fluxion.Expr
