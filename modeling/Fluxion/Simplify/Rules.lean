import Fluxion.Simplify.Fold

/-!
Algebraic simplification. A node whose children have been simplified is replaced
by what the first rule that applies to it says, and is not looked at again in the
same pass. Numbers count as 0 or 1 when they are within the tolerance of it.
-/

namespace Fluxion.Simplify

variable {α : Type}

def isValue [Scalar α] (epsilon : α) (tree : Expr α) (value : Nat) : Bool :=
  match tree with
  | .num v => Scalar.near epsilon v (Scalar.ofNat value)
  | _ => false

def wholeNumber [Scalar α] (n : Nat) : Expr α := .num (Scalar.ofNat n)

/-- A plus sign falls away, a minus sign enters a number, and two signs become
one or none. -/
def reduceSigned [Scalar α] (op : SignOp) (operand : Expr α) : Option (Expr α) :=
  match op with
  | .plus => some operand
  | _ =>
      match operand with
      | .num value => some (.num (Scalar.neg value))
      | .signed .minus inner => some inner
      | .signed _ inner => some (.signed .minus inner)
      | _ => none

variable [Scalar α]

def reduceSum (epsilon : α) (lhs rhs : Expr α) : Option (Expr α) :=
  if isValue epsilon lhs 0 then some rhs
  else if isValue epsilon rhs 0 then some lhs
  else if lhs.same rhs then some (.binary .mul (wholeNumber 2) lhs)
  else none

def reduceDifference (epsilon : α) (lhs rhs : Expr α) : Option (Expr α) :=
  if isValue epsilon rhs 0 then some lhs
  else if isValue epsilon lhs 0 then some (.signed .minus rhs)
  else if lhs.same rhs then some (wholeNumber 0)
  else none

def reduceProduct (epsilon : α) (lhs rhs : Expr α) : Option (Expr α) :=
  if isValue epsilon lhs 1 then some rhs
  else if isValue epsilon rhs 1 then some lhs
  else if isValue epsilon lhs 0 || isValue epsilon rhs 0 then some (wholeNumber 0)
  else none

def reduceQuotient (epsilon : α) (lhs rhs : Expr α) : Option (Expr α) :=
  if isValue epsilon lhs 0 then some (wholeNumber 0)
  else if isValue epsilon rhs 1 then some lhs
  else if lhs.same rhs then some (wholeNumber 1)
  else none

def reducePower (epsilon : α) (lhs rhs : Expr α) : Option (Expr α) :=
  if isValue epsilon lhs 0 then some (wholeNumber 0)
  else if isValue epsilon lhs 1 then some (wholeNumber 1)
  else if isValue epsilon rhs 0 then some (wholeNumber 1)
  else if isValue epsilon rhs 1 then some lhs
  else none

def reduceBinary (epsilon : α) (op : BinaryOp) (lhs rhs : Expr α) : Option (Expr α) :=
  match op with
  | .add => reduceSum epsilon lhs rhs
  | .sub => reduceDifference epsilon lhs rhs
  | .mul => reduceProduct epsilon lhs rhs
  | .div => reduceQuotient epsilon lhs rhs
  | .pow => reducePower epsilon lhs rhs
  | .other _ => none

def identityAt? (epsilon : α) (name : String) (point : α) : Option Nat :=
  if name = "sin" ∧ Scalar.near epsilon point (Scalar.ofNat 0) then some 0
  else if name = "tg" ∧ Scalar.near epsilon point (Scalar.ofNat 0) then some 0
  else if name = "cos" ∧ Scalar.near epsilon point (Scalar.ofNat 0) then some 1
  else if name = "ln" ∧ Scalar.near epsilon point (Scalar.ofNat 1) then some 0
  else none

def reduceCall (epsilon : α) (name : String) (arg : Expr α) : Option (Expr α) :=
  match arg with
  | .num value => (identityAt? epsilon name value).map wholeNumber
  | .var variableName =>
      if name = "ln" ∧ variableName = Expr.eulerName then some (wholeNumber 1) else none
  | _ => none

def settle (reduced : Option (Expr α)) (node : Expr α) (changed : Bool) : Pass α :=
  match reduced with
  | some tree => ⟨tree, true⟩
  | none => ⟨node, changed⟩

/-- One pass from the leaves to the root. Numbers, variables and derivative
markers are never replaced themselves. -/
def simplify (epsilon : α) : Expr α → Except Fault (Pass α)
  | .missing => pure ⟨.missing, false⟩
  | .num value => pure ⟨.num value, false⟩
  | .var name => pure ⟨.var name, false⟩
  | .binary op lhs rhs => do
      requireChild "lhs" "BinaryOp" lhs
      let left ← simplify epsilon lhs
      requireChild "rhs" "BinaryOp" rhs
      let right ← simplify epsilon rhs
      pure (settle (reduceBinary epsilon op left.tree right.tree)
        (.binary op left.tree right.tree) (left.changed || right.changed))
  | .signed op operand => do
      requireChild "operand" "PrefixOp" operand
      let inner ← simplify epsilon operand
      pure (settle (reduceSigned op inner.tree) (.signed op inner.tree) inner.changed)
  | .marked op operand => do
      requireChild "operand" "PostfixOp" operand
      let inner ← simplify epsilon operand
      pure ⟨.marked op inner.tree, inner.changed⟩
  | .call name arg => do
      requireChild "arg" "Call" arg
      let inner ← simplify epsilon arg
      pure (settle (reduceCall epsilon name inner.tree) (.call name inner.tree) inner.changed)

end Fluxion.Simplify
