import Fluxion.Expr.Build

/-!
Substitution of a number for a variable. The tree that is substituted into stays
as it is; nothing in it may be missing.
-/

namespace Fluxion.Expr

variable {α : Type}

def fillIn (value : α) (variableName : String) : Expr α → Expr α
  | missing => missing
  | num v => num v
  | var name => if name = variableName then num value else var name
  | binary op lhs rhs => binary op (lhs.fillIn value variableName) (rhs.fillIn value variableName)
  | signed op operand => signed op (operand.fillIn value variableName)
  | marked op operand => marked op (operand.fillIn value variableName)
  | call name arg => call name (arg.fillIn value variableName)

def substitute (tree : Expr α) (value : α) (variableName : String) : Except Fault (Expr α) :=
  if tree.isWhole then pure (tree.fillIn value variableName)
  else throw (.build .incompleteSubstitution)

theorem is_constant_fill_in (value : α) (variableName : String) (tree : Expr α) :
    (tree.fillIn value variableName).isConstant variableName = true := by
  induction tree with
  | var name =>
      by_cases same : name = variableName <;> simp [fillIn, isConstant, same]
  | _ => simp_all [fillIn, isConstant]

end Fluxion.Expr
