import Fluxion.Expr.Basic
import Fluxion.Fault

/-!
Binding strength. A writer is given the lowest priority that may stand bare at a
place; anything looser is put in brackets. At the free priority everything may
stand bare, as it may at the outermost place and inside a call's own parentheses.
-/

namespace Fluxion

/-- The priority of a place where anything may stand without brackets. -/
def freePriority : Int := -1

/-- The priority of the operand of a sign, a marker or, in LaTeX, a power. -/
def tightPriority : Int := 3

def BinaryOp.priority : BinaryOp → Except Fault Int
  | .add | .sub => pure 0
  | .mul | .div => pure 1
  | .pow => pure 2
  | .other symbol => throw (.noPriority symbol)

def bracket (needed : Bool) (left text right : String) : String :=
  if needed then left ++ text ++ right else text

/-- A number in brackets if it is negative and may not stand bare. -/
def writtenNumber {α : Type} [Scalar α] (value : α) (floor : Int) : String :=
  bracket (Scalar.isNegative value && floor != freePriority) "(" (Scalar.plainText value) ")"

end Fluxion
