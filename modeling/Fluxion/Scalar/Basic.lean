/-!
The numbers an expression is made of. Everything the engine does with a number
goes through the operations below, so the same definitions run on doubles and
can be read over exact rationals or reals.
-/

namespace Fluxion

inductive NamedFunction
  | sin
  | cos
  | tg
  | ctg
  | ln
  deriving DecidableEq, Repr

namespace NamedFunction

def name : NamedFunction → String
  | sin => "sin"
  | cos => "cos"
  | tg => "tg"
  | ctg => "ctg"
  | ln => "ln"

def ofName? (name : String) : Option NamedFunction :=
  [sin, cos, tg, ctg, ln].find? (·.name == name)

end NamedFunction

/-- What the engine asks of its numbers. The partial operations have no result
where the mathematical one does not exist or is not a finite number. -/
class Scalar (α : Type) where
  /-- The nearest number to a whole one. -/
  ofNat : Nat → α
  isFinite : α → Bool
  /-- The value of a number that is whole. -/
  toInt? : α → Option Int
  /-- The nearest number to a written numeral. -/
  read? : String → Option α
  /-- The shortest text that reads back as the number. -/
  text : α → String
  /-- Numeric equality, which need not tell the two zeros apart. -/
  same : α → α → Bool
  /-- `near ε a b` says that `a` and `b` differ by less than `ε`. -/
  near : α → α → α → Bool
  /-- The `ε` of every comparison that asks for no other. -/
  tolerance : α
  isNegative : α → Bool
  isNonNegative : α → Bool
  neg : α → α
  add : α → α → Option α
  sub : α → α → Option α
  mul : α → α → Option α
  div : α → α → Option α
  pow : α → α → Option α
  /-- A named function, where the argument is in its domain. -/
  apply : NamedFunction → α → Option α
  euler : α
  pi : α

namespace Scalar

variable {α : Type} [Scalar α]

/-- The text of a number inside an expression: a whole number is its plain digits,
the only form in which numbers are read again. -/
def plainText (value : α) : String :=
  match toInt? value with
  | some n => toString n
  | none => text value

end Scalar

end Fluxion
