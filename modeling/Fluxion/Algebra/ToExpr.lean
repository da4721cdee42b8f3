import Fluxion.Algebra.Parting
import Fluxion.Expr.Build

/-!
The expression of a term, a tree that the grammar could have produced: no negative
numbers, but signs, and ratios as divisions. Terms that have no expression are
refused.
-/

namespace Fluxion

variable {α : Type} [Scalar α]

namespace Term

/-- A whole number or a division of two. The parts of a division must not be beyond
the finite numbers. -/
def divisionExpr (top bottom : Nat) : Except Fault (Expr α) :=
  if bottom = 1 then pure (.num (Scalar.ofNat top))
  else do return .binary .div (← Expr.makeWhole top) (← Expr.makeWhole bottom)

def ratioExpr (q : Rat) : Except Fault (Expr α) := do
  let size ← divisionExpr q.num.natAbs q.den
  return if q < 0 then .signed .minus size else size

def quantityExpr (q : Quantity α) : Except Fault (Expr α) :=
  match q with
  | .exact ratio => ratioExpr ratio
  | .approximate value =>
      pure (if Scalar.isNegative value then .signed .minus (.num (Scalar.neg value))
        else .num value)

def joinLeft (op : BinaryOp) : List (Expr α) → Expr α
  | [] => .missing
  | first :: rest => rest.foldl (.binary op) first

def inconvertible (kind : String) : Except Fault (Expr α) :=
  throw (.build (.inconvertibleTerm kind))

end Term

open Term

/-- The expression of a term that is taken apart in this way. -/
def Parting.toExpr (parting : Parting α) : Term α → Except Fault (Expr α)
  | .number q => quantityExpr q
  | .euler => pure (.var Expr.eulerName)
  | .pi => pure (.var Expr.piName)
  | .imaginary => inconvertible "ImaginaryUnit"
  | .infinity => throw (.build (.unsupportedNumber "oo"))
  | .complexInfinity => inconvertible "ComplexInfinity"
  | .undefined => throw (.build (.unsupportedNumber "nan"))
  | .symbol name => Expr.makeVariable name
  | .sum terms => do return joinLeft .add (← (parting.orderedTerms terms).mapM parting.toExpr)
  | .product [.number q, .infinity] =>
      throw (.build (.unsupportedNumber (if q.isNegative then "-oo" else "oo")))
  | .product factors => do
      if (parting.coefficient factors).1.isExactly (-1) then
        return .signed .minus (← parting.toExpr (parting.coefficient factors).2)
      else
        return joinLeft .mul (← (parting.orderedFactors factors).mapM parting.toExpr)
  | .power base exponent => do
      return .binary .pow (← parting.toExpr (parting.baseExponent base exponent).1)
        (← parting.toExpr (parting.baseExponent base exponent).2)
  | .apply (.named f) (arg :: _) => do Expr.makeCall f.name (← parting.toExpr arg)
  | .apply .exponential (arg :: _) => do
      return .binary .pow (.var Expr.eulerName) (← parting.toExpr arg)
  | .apply (.free name) [arg] => do Expr.makeCall name (← parting.toExpr arg)
  | .apply head _ => inconvertible head.name
  | .slope _ _ _ => inconvertible "Subs"
termination_by t => parting.size t
decreasing_by
  · exact parting.term_smaller (by assumption)
  · exact parting.rest_smaller (by assumption)
  · exact parting.factor_smaller (by assumption)
  · exact parting.base_smaller base exponent
  · exact parting.exponent_smaller base exponent
  · exact parting.argument_smaller _ List.mem_cons_self
  · exact parting.argument_smaller _ List.mem_cons_self
  · exact parting.argument_smaller _ List.mem_cons_self

def Term.toExpr (t : Term α) : Except Fault (Expr α) := Parting.written.toExpr t

end Fluxion
