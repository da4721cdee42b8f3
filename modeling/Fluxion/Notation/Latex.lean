import Fluxion.Notation.Priority

/-!
LaTeX notation. A fraction bar and an exponent group what stands in them, so only
the other places ask for brackets. A number before a name is multiplied without a
sign.
-/

namespace Fluxion.Expr

variable {α : Type}

def latexFunctionName (name : String) : String :=
  if name = "sin" ∨ name = "cos" ∨ name = "ln" then "\\" ++ name
  else "\\operatorname\x7b" ++ name ++ "\x7d"

def latexVariableName (name : String) : String := if name = piName then "\\pi" else name

def braced (text : String) : String := "\x7b" ++ text ++ "\x7d"

def isNamed : Expr α → Bool
  | var _ | call _ _ | marked _ _ => true
  | _ => false

/-- Multiplication without a sign, as in `4x`. -/
def isJuxtaposed [Scalar α] (lhs rhs : Expr α) : Bool :=
  match lhs with
  | num value => Scalar.isNonNegative value && rhs.isNamed
  | _ => false

def latexAt [Scalar α] (floor : Int) : Expr α → Except Fault String
  | missing => throw .nothingToWrite
  | num value => pure (writtenNumber value floor)
  | var name => pure (latexVariableName name)
  | call name arg => do
      return latexFunctionName name ++ "(" ++ (← arg.latexAt freePriority) ++ ")"
  | signed op operand => do
      let text := op.symbol ++ (← operand.latexAt tightPriority)
      return bracket (floor != freePriority) "(" text ")"
  | marked op operand => do return (← operand.latexAt tightPriority) ++ op.symbol
  | binary op lhs rhs => do
      let priority ← op.priority
      let text ← match op with
        | .div => do
            let top ← lhs.latexAt freePriority
            let bottom ← rhs.latexAt freePriority
            pure ("\\frac" ++ braced top ++ braced bottom)
        | .pow => do
            let base ← lhs.latexAt tightPriority
            let exponent ← rhs.latexAt freePriority
            pure (base ++ "^" ++ braced exponent)
        | _ => do
            let left ← lhs.latexAt priority
            let right ← rhs.latexAt (priority + 1)
            pure (match op with
              | .mul => if isJuxtaposed lhs rhs then left ++ right else left ++ " \\cdot " ++ right
              | _ => left ++ " " ++ op.symbol ++ " " ++ right)
      return bracket (priority < floor) "\\left(" text "\\right)"

def toLatex [Scalar α] (tree : Expr α) : Except Fault String := tree.latexAt freePriority

end Fluxion.Expr
