import Fluxion.Expr.Basic
import Fluxion.Text.Quoted

/-!
The constructor notation of a tree, as error messages show it: every node with
its kind, its operator or name quoted, and its children in order.
-/

namespace Fluxion.Expr

open Fluxion.Text (quoted)

variable {α : Type}

def kindName : Expr α → String
  | missing => "None"
  | num _ => "Number"
  | var _ => "Variable"
  | binary _ _ _ => "BinaryOp"
  | signed _ _ => "PrefixOp"
  | marked _ _ => "PostfixOp"
  | call _ _ => "Call"

def describe [Scalar α] : Expr α → String
  | missing => "None"
  | num value => "Number(" ++ Scalar.text value ++ ")"
  | var name => "Variable(" ++ quoted name ++ ")"
  | binary op lhs rhs =>
      "BinaryOp(" ++ quoted op.symbol ++ ", " ++ lhs.describe ++ ", " ++ rhs.describe ++ ")"
  | signed op operand => "PrefixOp(" ++ quoted op.symbol ++ ", " ++ operand.describe ++ ")"
  | marked op operand => "PostfixOp(" ++ quoted op.symbol ++ ", " ++ operand.describe ++ ")"
  | call name arg => "Call(" ++ quoted name ++ ", " ++ arg.describe ++ ")"

end Fluxion.Expr
