import Fluxion.Algebra.OfExpr
import Fluxion.Algebra.Ordered
import Fluxion.Algebra.ToExpr
import Fluxion.Notation.Infix
import Fluxion.Notation.Latex
import Fluxion.Random.Twister

/-!
Random expressions: a sum of random terms. A drawn sum with a singular value in it
or with a number that is too large is thrown away as a whole and drawn again.
-/

namespace Fluxion

structure SamplePlan where
  terms : Nat
  depth : Nat
  names : List String
  deriving DecidableEq, Repr

namespace Sample

variable {α : Type} [Scalar α]

def largestNumber : Nat := 1000000000000

def drawLimit : Nat := 100000

abbrev Draw (β : Type) := StateT Twister (Except Fault) β

def happens (bound : Float) : Draw Bool := do
  let (k, t) := (← get).fraction
  set t
  return Float.ofScientific k false 0 / 9007199254740992.0 < bound

def index (n : Nat) : Draw Nat := do
  let (i, t) := (← get).drawIndex n
  set t
  return i

def choose {β : Type} (first : β) (rest : List β) : Draw β := do
  return (first :: rest).getD (← index (rest.length + 1)) first

def oneTo (bound : Nat) : Draw Nat := do return (← index bound) + 1

inductive Shape
  | sum
  | product
  | power
  | function
  deriving DecidableEq, Repr

def leaf (names : List String) : Draw (Term α) := do
  if ← happens 0.7 then
    match names with
    | [] => throw .nothingToChoose
    | first :: rest => return .symbol (← choose first rest)
  else return .ofInt (← oneTo 10)

/-- A random term. The exponent of a power is drawn behind both operands, the
second of which a power does not use. -/
def node (names : List String) : Nat → Draw (Term α)
  | 0 => leaf names
  | depth + 1 => do
      if ← happens 0.4 then leaf names
      else
        match ← choose Shape.sum [.product, .power, .function] with
        | .function =>
            let f ← choose NamedFunction.sin [.cos, .tg, .ctg, .ln]
            return Term.applyNamed f (← node names depth)
        | shape =>
            let left ← node names depth
            let right ← node names depth
            match shape with
            | .sum => return left.add right
            | .product => return left.mul right
            | _ => return left.pow (.ofInt (← oneTo 5))

def isLarge (t : Term α) : Bool :=
  match t with
  | .number (.exact q) => (largestNumber : Rat) < q || q < -(largestNumber : Rat)
  | _ => false

def isAcceptable (t : Term α) : Bool := !t.hasSingular && !t.anyPart isLarge

def sum (plan : SamplePlan) : Draw (Term α) := do
  return Term.addAll (← (List.replicate plan.terms ()).mapM fun _ => node plan.names plan.depth)

def accepted (plan : SamplePlan) : Nat → Draw (Term α)
  | 0 => throw (.nothingAcceptable drawLimit)
  | left + 1 => do
      let t ← sum plan
      if isAcceptable t then return t else accepted plan left

def expression (plan : SamplePlan) (seed : Int) : Except Fault (Expr α) := do
  let (t, _) ← (accepted plan drawLimit).run (Twister.ofSeed seed)
  (t : Term α).ordered.toExpr

end Sample

end Fluxion
