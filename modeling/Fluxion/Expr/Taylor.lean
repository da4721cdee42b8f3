import Fluxion.Derivative.Rules
import Fluxion.Expr.Substitution

/-!
Taylor polynomials: the sum of `f⁽ⁱ⁾(a) / i! · (x - a) ^ i`. A coefficient that
does not fold to a number stays symbolic. The factorial is an exact whole number
and must not be beyond the finite numbers.
-/

namespace Fluxion.Expr

variable {α : Type} [Scalar α]

def factorial : Nat → Nat
  | 0 => 1
  | n + 1 => (n + 1) * factorial n

def optimizedAt (tree : Expr α) (point : α) (variableName : String) :
    Except Fault (Expr α) := do
  (← tree.substitute point variableName).optimize

def taylorTerm (order : Nat) (point : α) (variableName : String) (derivative : Expr α) :
    Except Fault (Expr α) := do
  let coefficient ← derivative.optimizedAt point variableName
  let shift := binary .sub (← makeVariable variableName) (num point)
  let divisor ← makeWhole (factorial order)
  let exponent ← makeWhole order
  return binary .mul (binary .div coefficient divisor) (binary .pow shift exponent)

def taylorSum (point : α) (variableName : String) :
    Nat → Expr α → List (Expr α) → Except Fault (Expr α)
  | _, sum, [] => pure sum
  | order, sum, derivative :: rest => do
      let term ← taylorTerm order point variableName derivative
      taylorSum point variableName (order + 1) (binary .add sum term) rest

def taylorPolynomial (tree : Expr α) (order : Int) (point : α) (variableName : String) :
    Except Fault (Expr α) := do
  match ← tree.derivatives order variableName with
  | [] => pure missing
  | first :: rest =>
      let sum ← taylorTerm 0 point variableName first
      (← taylorSum point variableName 1 sum rest).optimize

def remainderLatex (order : Int) (point : α) (variableName : String) : Except Fault String := do
  let shift ← (binary .sub (← makeVariable variableName) (num point)).optimize
  let base ← shift.latexAt tightPriority
  return "o\\left(" ++ base ++ "^" ++ braced (toString order) ++ "\\right)"

end Fluxion.Expr
