import Fluxion.Scalar.Basic

/-!
Expression trees. A prefix sign, a derivative marker and a function call are
nodes of their own. A tree may be loaded with operators that do not exist and
with children that are missing; such trees can be shown, compared and refused,
and checked construction never makes them.
-/

namespace Fluxion

inductive BinaryOp
  | add
  | sub
  | mul
  | div
  | pow
  /-- A symbol that is no binary operator. -/
  | other (symbol : String)
  deriving DecidableEq, Repr

namespace BinaryOp

def symbol : BinaryOp → String
  | add => "+"
  | sub => "-"
  | mul => "*"
  | div => "/"
  | pow => "^"
  | other symbol => symbol

def ofSymbol (symbol : String) : BinaryOp :=
  if symbol = "+" then add
  else if symbol = "-" then sub
  else if symbol = "*" then mul
  else if symbol = "/" then div
  else if symbol = "^" then pow
  else other symbol

def isKnown : BinaryOp → Bool
  | other _ => false
  | _ => true

theorem symbol_of_symbol (symbol : String) : (ofSymbol symbol).symbol = symbol := by
  unfold ofSymbol
  repeat' split
  all_goals simp_all [BinaryOp.symbol]

end BinaryOp

inductive SignOp
  | plus
  | minus
  /-- A symbol that is no sign. -/
  | other (symbol : String)
  deriving DecidableEq, Repr

namespace SignOp

def symbol : SignOp → String
  | plus => "+"
  | minus => "-"
  | other symbol => symbol

def ofSymbol (symbol : String) : SignOp :=
  if symbol = "+" then plus else if symbol = "-" then minus else other symbol

def isKnown : SignOp → Bool
  | other _ => false
  | _ => true

theorem symbol_of_symbol (symbol : String) : (ofSymbol symbol).symbol = symbol := by
  unfold ofSymbol
  repeat' split
  all_goals simp_all [SignOp.symbol]

end SignOp

inductive MarkOp
  /-- The derivative marker. -/
  | prime
  /-- A symbol that is no marker. -/
  | other (symbol : String)
  deriving DecidableEq, Repr

namespace MarkOp

def symbol : MarkOp → String
  | prime => "'"
  | other symbol => symbol

def ofSymbol (symbol : String) : MarkOp := if symbol = "'" then prime else other symbol

def isKnown : MarkOp → Bool
  | other _ => false
  | _ => true

theorem symbol_of_symbol (symbol : String) : (ofSymbol symbol).symbol = symbol := by
  unfold ofSymbol
  repeat' split
  all_goals simp_all [MarkOp.symbol]

end MarkOp

inductive Expr (α : Type)
  | missing
  | num (value : α)
  | var (name : String)
  | binary (op : BinaryOp) (lhs rhs : Expr α)
  | signed (op : SignOp) (operand : Expr α)
  | marked (op : MarkOp) (operand : Expr α)
  | call (name : String) (arg : Expr α)
  deriving Repr, Inhabited

namespace Expr

variable {α : Type}

def defaultVariable : String := "x"

def eulerName : String := "e"

def piName : String := "pi"

def children : Expr α → List (Expr α)
  | missing | num _ | var _ => []
  | binary _ lhs rhs => [lhs, rhs]
  | signed _ operand | marked _ operand => [operand]
  | call _ arg => [arg]

def isMissing : Expr α → Bool
  | missing => true
  | _ => false

def isWhole : Expr α → Bool
  | missing => false
  | num _ | var _ => true
  | binary _ lhs rhs => lhs.isWhole && rhs.isWhole
  | signed _ operand | marked _ operand => operand.isWhole
  | call _ arg => arg.isWhole

def size : Expr α → Nat
  | missing | num _ | var _ => 1
  | binary _ lhs rhs => lhs.size + rhs.size + 1
  | signed _ operand | marked _ operand => operand.size + 1
  | call _ arg => arg.size + 1

/-- The variable does not occur. A function name is no occurrence. -/
def isConstant (variableName : String) : Expr α → Bool
  | missing | num _ => true
  | var name => name != variableName
  | binary _ lhs rhs => lhs.isConstant variableName && rhs.isConstant variableName
  | signed _ operand | marked _ operand => operand.isConstant variableName
  | call _ arg => arg.isConstant variableName

/-- Equality of trees up to numeric equality of their numbers. -/
def same [Scalar α] : Expr α → Expr α → Bool
  | missing, missing => true
  | num a, num b => Scalar.same a b
  | var a, var b => a == b
  | binary op lhs rhs, binary op' lhs' rhs' => op == op' && lhs.same lhs' && rhs.same rhs'
  | signed op operand, signed op' operand' => op == op' && operand.same operand'
  | marked op operand, marked op' operand' => op == op' && operand.same operand'
  | call name arg, call name' arg' => name == name' && arg.same arg'
  | _, _ => false

/-- The node below a chain of derivative markers. -/
def underMarkers : Expr α → Expr α
  | marked .prime operand => operand.underMarkers
  | tree => tree

end Expr

end Fluxion
