import Fluxion.Simplify.Fold

/-!
The numeric value of a tree under a binding of its identifiers. Euler's number
and the circle constant are bound unless they are bound otherwise. Both operands
of an operator are evaluated, the left one first, before the operator is looked
at; a function is looked up before its argument is evaluated.
-/

namespace Fluxion

variable {α : Type} [Scalar α]

abbrev Bindings (α : Type) := String → Option α

namespace Bindings

def constants : Bindings α := fun name =>
  if name = Expr.eulerName then some Scalar.euler
  else if name = Expr.piName then some Scalar.pi
  else none

def ofVariable (variableName : String) (value : α) (environment : Bindings α) : Bindings α :=
  fun name =>
    if name = variableName then some value
    else (environment name).or (constants name)

def none : Bindings α := fun _ => Option.none

end Bindings

namespace Expr

def evaluateIn (bindings : Bindings α) : Expr α → Except Fault α
  | missing => throw (.evaluation (.unknownNode (missing : Expr α).describe))
  | num value => pure value
  | var name =>
      match bindings name with
      | some value => pure value
      | none => throw (.evaluation (.unbound name))
  | signed op operand => do
      let value ← operand.evaluateIn bindings
      return if op = .minus then Scalar.neg value else value
  | binary op lhs rhs => do
      let left ← lhs.evaluateIn bindings
      let right ← rhs.evaluateIn bindings
      match ← op.fold left right with
      | some value => pure value
      | none =>
          throw (.evaluation
            (.undefinedOperation (Scalar.text left) op.symbol (Scalar.text right)))
  | call name arg =>
      match NamedFunction.ofName? name with
      | none => throw (.evaluation (.unknownFunction name))
      | some f => do
          let value ← arg.evaluateIn bindings
          match Scalar.apply f value with
          | some result => pure result
          | none => throw (.evaluation (.undefinedCall name (Scalar.text value)))
  | marked _ _ => throw (.evaluation .unresolvedDerivative)

/-- The value of a tree with a variable bound to a number, and further identifiers
to those of an environment. -/
def evaluate (tree : Expr α) (value : α) (variableName : String) (environment : Bindings α) :
    Except Fault α :=
  tree.evaluateIn (Bindings.ofVariable variableName value environment)

end Expr

end Fluxion
