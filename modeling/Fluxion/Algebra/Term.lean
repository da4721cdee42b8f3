import Fluxion.Scalar.Basic

/-!
Terms of commutative algebra. Sums and products are lists without nesting, and a
difference, a quotient and a negation are written with them and with powers.
Numbers are exact ratios where they can be.
-/

namespace Fluxion

/-- A number that is an exact ratio, or else a number of the engine. -/
inductive Quantity (α : Type)
  | exact (ratio : Rat)
  | approximate (value : α)
  deriving Repr

namespace Quantity

variable {α : Type} [Scalar α]

def ofScalar (value : α) : Quantity α :=
  match Scalar.toInt? value with
  | some n => exact n
  | none => approximate value

def toScalar? : Quantity α → Option α
  | approximate value => some value
  | exact ratio =>
      let size := Scalar.div (Scalar.ofNat ratio.num.natAbs) (Scalar.ofNat ratio.den : α)
      if ratio.num < 0 then size.map Scalar.neg else size

/-- A result of inexact arithmetic stays inexact, unless it is zero. -/
def ofResult (value : α) : Quantity α :=
  if Scalar.same value (Scalar.ofNat 0) then exact 0 else approximate value

def combine? (onRatios : Rat → Rat → Rat) (onScalars : α → α → Option α) :
    Quantity α → Quantity α → Option (Quantity α)
  | exact a, exact b => some (exact (onRatios a b))
  | a, b => do return ofResult (← onScalars (← a.toScalar?) (← b.toScalar?))

def add? : Quantity α → Quantity α → Option (Quantity α) := combine? (· + ·) Scalar.add

def mul? : Quantity α → Quantity α → Option (Quantity α) := combine? (· * ·) Scalar.mul

def same : Quantity α → Quantity α → Bool
  | exact a, exact b => a == b
  | approximate a, approximate b => Scalar.same a b
  | _, _ => false

def isExactly (n : Int) : Quantity α → Bool
  | exact ratio => ratio == n
  | approximate _ => false

def isNegative : Quantity α → Bool
  | exact ratio => ratio < 0
  | approximate value => Scalar.isNegative value

def neg : Quantity α → Quantity α
  | exact ratio => exact (-ratio)
  | approximate value => approximate (Scalar.neg value)

end Quantity

inductive Head
  | named (f : NamedFunction)
  | exponential
  /-- A function of analysis that expressions cannot name. -/
  | foreign (name : String)
  /-- A function about which nothing is known. -/
  | free (name : String)
  deriving DecidableEq, Repr

namespace Head

/-- The names of algebra differ from those of expressions for three functions. -/
def name : Head → String
  | named .sin => "sin"
  | named .cos => "cos"
  | named .tg => "tan"
  | named .ctg => "cot"
  | named .ln => "log"
  | exponential => "exp"
  | foreign name => name
  | free name => name

def known : List Head :=
  [named .sin, named .cos, named .tg, named .ctg, named .ln, exponential,
    foreign "Abs", foreign "sec", foreign "asin"]

def ofName (name : String) : Head := (known.find? (·.name == name)).getD (free name)

def ofFunction (functionName : String) : Head :=
  match NamedFunction.ofName? functionName with
  | some f => named f
  | none => free functionName

end Head

inductive Term (α : Type)
  | number (q : Quantity α)
  | euler
  | pi
  | imaginary
  | infinity
  | complexInfinity
  | undefined
  | symbol (name : String)
  | sum (terms : List (Term α))
  | product (factors : List (Term α))
  | power (base exponent : Term α)
  | apply (head : Head) (args : List (Term α))
  /-- A derivative of a function, of some order, at a point. -/
  | slope (head : Head) (order : Nat) (point : Term α)
  deriving Inhabited

namespace Term

variable {α : Type}

def ofInt (n : Int) : Term α := number (.exact n)

def isExactly [Scalar α] (n : Int) : Term α → Bool
  | number q => q.isExactly n
  | _ => false

mutual

def same [Scalar α] : Term α → Term α → Bool
  | number a, number b => a.same b
  | euler, euler | pi, pi | imaginary, imaginary | infinity, infinity => true
  | complexInfinity, complexInfinity | undefined, undefined => true
  | symbol a, symbol b => a == b
  | sum a, sum b => sameAll a b
  | product a, product b => sameAll a b
  | power a n, power b m => a.same b && n.same m
  | apply f a, apply g b => f == g && sameAll a b
  | slope f n a, slope g m b => f == g && n == m && a.same b
  | _, _ => false

def sameAll [Scalar α] : List (Term α) → List (Term α) → Bool
  | [], [] => true
  | a :: as, b :: bs => a.same b && sameAll as bs
  | _, _ => false

end

mutual

def anyPart (p : Term α → Bool) : Term α → Bool
  | sum terms => p (sum terms) || anyOf p terms
  | product factors => p (product factors) || anyOf p factors
  | power base exponent => p (power base exponent) || base.anyPart p || exponent.anyPart p
  | apply head args => p (apply head args) || anyOf p args
  | slope head order point => p (slope head order point) || point.anyPart p
  | leaf => p leaf

def anyOf (p : Term α → Bool) : List (Term α) → Bool
  | [] => false
  | t :: ts => t.anyPart p || anyOf p ts

end

/-- A value beyond every number, or none at all. -/
def isSingular : Term α → Bool
  | infinity | complexInfinity | undefined => true
  | _ => false

def hasSingular (t : Term α) : Bool := t.anyPart isSingular

end Term

end Fluxion
