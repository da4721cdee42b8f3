import Fluxion.Expr.Description
import Fluxion.Fault

/-!
Checked construction. Each constructor function refuses a missing child, an
operator that does not exist and an empty name, so that no half-built tree gets
out. Replacement puts a subtree into a named slot of a node.
-/

namespace Fluxion.Expr

variable {α : Type}

def makeVariable (name : String) : Except Fault (Expr α) :=
  if name = "" then throw (.build .namelessVariable) else pure (var name)

def makeBinary (op : BinaryOp) (lhs rhs : Expr α) : Except Fault (Expr α) :=
  if lhs.isMissing || rhs.isMissing then throw (.build (.missingOperand op.symbol))
  else if op.isKnown then pure (binary op lhs rhs)
  else throw (.build (.notBinary op.symbol))

def makeCall (name : String) (arg : Expr α) : Except Fault (Expr α) :=
  if name = "" then throw (.build .namelessFunction)
  else if arg.isMissing then throw (.build (.missingArgument name))
  else pure (call name arg)

def makeSigned (op : SignOp) (operand : Expr α) : Except Fault (Expr α) :=
  if operand.isMissing then throw (.build (.missingSigned op.symbol))
  else if op.isKnown then pure (signed op operand)
  else throw (.build (.notSign op.symbol))

def makeMarked (op : MarkOp) (operand : Expr α) : Except Fault (Expr α) :=
  if operand.isMissing then throw (.build (.missingMarked op.symbol))
  else if op.isKnown then pure (marked op operand)
  else throw (.build (.notMarker op.symbol))

def makeWhole [Scalar α] (n : Nat) : Except Fault (Expr α) :=
  let value : α := Scalar.ofNat n
  if Scalar.isFinite value then pure (num value) else throw .numberTooLarge

/-- The tree built again from its leaves, which fails where something is missing. -/
def whole : Expr α → Except Fault (Expr α)
  | missing => throw (.build .incompleteCopy)
  | num value => pure (num value)
  | var name => pure (var name)
  | binary op lhs rhs => do return binary op (← lhs.whole) (← rhs.whole)
  | signed op operand => do return signed op (← operand.whole)
  | marked op operand => do return marked op (← operand.whole)
  | call name arg => do return call name (← arg.whole)

def changeChild (change : Expr α → Except Fault (Expr α)) (slot : String) :
    Expr α → Except Fault (Expr α)
  | binary op lhs rhs =>
      if slot = "lhs" then do return binary op (← change lhs) rhs
      else if slot = "rhs" then do return binary op lhs (← change rhs)
      else throw (.build (.noSlot "BinaryOp" slot))
  | signed op operand =>
      if slot = "operand" then do return signed op (← change operand)
      else throw (.build (.noSlot "PrefixOp" slot))
  | marked op operand =>
      if slot = "operand" then do return marked op (← change operand)
      else throw (.build (.noSlot "PostfixOp" slot))
  | call name arg =>
      if slot = "arg" then do return call name (← change arg)
      else throw (.build (.noSlot "Call" slot))
  | leaf => throw (.build (.noSlot leaf.kindName slot))

def replaceChild (slot : String) (replacement tree : Expr α) : Except Fault (Expr α) :=
  tree.changeChild
    (fun _ => if replacement.isMissing then throw (.build (.emptyReplacement slot))
      else pure replacement)
    slot

/-- Replaces a child of the node that a path of slots leads to. -/
def replaceAt (path : List String) (slot : String) (replacement tree : Expr α) :
    Except Fault (Expr α) :=
  match path with
  | [] => tree.replaceChild slot replacement
  | step :: rest => tree.changeChild (replaceAt rest slot replacement) step

end Fluxion.Expr
