import Fluxion.Algebra.Canonical
import Fluxion.Expr.Description
import Fluxion.Fault

/-!
The canonical term of an expression. A chain of derivative markers over a call is
a derivative of the function, of the order of the chain, at the argument.
-/

namespace Fluxion.Expr

variable {α : Type} [Scalar α]

def numberTerm (value : α) : Term α :=
  if Scalar.isFinite value then .number (.ofScalar value)
  else if Scalar.isNegative value then .product [.ofInt (-1), .infinity]
  else if Scalar.isNonNegative value then .infinity
  else .undefined

def identifierTerm (name : String) : Term α :=
  if name = eulerName then .euler else if name = piName then .pi else .symbol name

mutual

def toTerm : Expr α → Except Fault (Term α)
  | missing => throw (.build (.inconvertibleTree (missing : Expr α).describe))
  | num value => pure (numberTerm value)
  | var name => pure (identifierTerm name)
  | signed op operand => do
      let term ← operand.toTerm
      return if op = .minus then term.neg else term
  | binary op lhs rhs => do
      let left ← lhs.toTerm
      let right ← rhs.toTerm
      return match op with
        | .add => left.add right
        | .sub => left.sub right
        | .mul => left.mul right
        | .div => left.div right
        | _ => left.pow right
  | call name arg => do return Term.applyHead (Head.ofFunction name) (← arg.toTerm)
  | marked op operand =>
      match op with
      | .prime => slopeTerm 1 operand
      | .other symbol =>
          throw (.build (.inconvertibleTree (marked (.other symbol) operand).describe))

/-- The derivative that a chain of markers stands for, `order` of which have been
passed. -/
def slopeTerm (order : Nat) : Expr α → Except Fault (Term α)
  | marked _ operand => slopeTerm (order + 1) operand
  | call name arg => do return .slope (Head.ofFunction name) order (← arg.toTerm)
  | found => throw (.build (.markerWithoutCall found.describe))

end

end Fluxion.Expr
