import Fluxion.Derivative.Step
import Fluxion.Simplify.Fixpoint

/-!
Differentiation by rules. The derivative is left as the rules build it; only a
constant exponent is optimized on the way. A function without a rule stays
unresolved under a derivative marker, and differentiating such a marker adds
another one. A product takes the derivative of its right factor first.
-/

namespace Fluxion

variable {α : Type} [Scalar α]

def NamedFunction.slope (f : NamedFunction) (arg : Expr α) : Expr α :=
  let one : Expr α := .num (Scalar.ofNat 1)
  let square (base : Expr α) : Expr α := .binary .pow base (.num (Scalar.ofNat 2))
  match f with
  | .sin => .call "cos" arg
  | .cos => .signed .minus (.call "sin" arg)
  | .tg => .binary .div one (square (.call "cos" arg))
  | .ctg => .binary .div (.signed .minus one) (square (.call "sin" arg))
  | .ln => .binary .div one arg

def outerDerivative (name : String) (arg : Expr α) : Except Fault (Expr α) :=
  match NamedFunction.ofName? name with
  | some f => pure (f.slope arg)
  | none => do return .marked .prime (← Expr.makeCall name arg)

namespace Expr

def requireMarkedCall (operand : Expr α) : Except Fault Unit :=
  match operand.underMarkers with
  | call _ _ => pure ()
  | found => throw (.differentiation (.markerWithoutCall found.describe))

def isZero (tree : Expr α) : Bool := Simplify.isValue Scalar.tolerance tree 0

open Differentiation (lift record)

mutual

/-- The derivative with respect to a variable; each rule that finishes records a
step. -/
def differentiate (v : String) : Expr α → Differentiation (Expr α)
  | missing => throw (.differentiation (.unknownNode (missing : Expr α).describe))
  | num value => record .constant (num value) (num (Scalar.ofNat 0))
  | var name =>
      record .variableName (var name) (num (Scalar.ofNat (if name = v then 1 else 0)))
  | call name arg => do
      let outer ← lift (do outerDerivative name (← arg.whole))
      let inner ← differentiate v arg
      record .chain (call name arg) (binary .mul outer inner)
  | signed op operand => do
      let inner ← differentiate v operand
      record .sign (signed op operand) (← lift (makeSigned op inner))
  | marked op operand =>
      match op with
      | .prime => do
          lift operand.requireMarkedCall
          let outer ← lift (marked .prime operand).whole
          let inner ← argumentDerivative v operand
          record .opaqueChain (marked .prime operand) (binary .mul (marked .prime outer) inner)
      | .other symbol => throw (.differentiation (.unknownMarker symbol))
  | binary op lhs rhs =>
      match op with
      | .add => do
          let left ← differentiate v lhs
          let right ← differentiate v rhs
          record .sum (binary .add lhs rhs) (binary .add left right)
      | .sub => do
          let left ← differentiate v lhs
          let right ← differentiate v rhs
          record .sum (binary .sub lhs rhs) (binary .sub left right)
      | .mul => do
          lift (discard lhs.whole)
          let right ← differentiate v rhs
          let left ← differentiate v lhs
          lift (discard rhs.whole)
          record .product (binary .mul lhs rhs)
            (binary .add (binary .mul lhs right) (binary .mul left rhs))
      | .div => do
          let left ← differentiate v lhs
          lift (discard rhs.whole)
          lift (discard lhs.whole)
          let right ← differentiate v rhs
          record .quotient (binary .div lhs rhs)
            (binary .div (binary .sub (binary .mul left rhs) (binary .mul lhs right))
              (binary .pow rhs (num (Scalar.ofNat 2))))
      | .pow =>
          if rhs.isConstant v then do
            let n ← lift (do (← rhs.whole).optimize)
            if n.isZero then record .power (binary .pow lhs rhs) (num (Scalar.ofNat 0))
            else
              lift (discard lhs.whole)
              let left ← differentiate v lhs
              let lowered := binary .pow lhs (binary .sub n (num (Scalar.ofNat 1)))
              record .power (binary .pow lhs rhs) (binary .mul (binary .mul n lowered) left)
          else do
            lift (discard lhs.whole)
            lift (discard rhs.whole)
            let power := binary .pow lhs rhs
            if lhs.isConstant v then
              let right ← differentiate v rhs
              record .power power (binary .mul (binary .mul power (call "ln" lhs)) right)
            else
              let left ← differentiate v lhs
              let right ← differentiate v rhs
              record .power power
                (binary .mul power
                  (binary .add (binary .div (binary .mul left rhs) lhs)
                    (binary .mul right (call "ln" lhs))))
      | .other symbol => throw (.differentiation (.unknownBinary symbol))

def argumentDerivative (v : String) : Expr α → Differentiation (Expr α)
  | marked .prime operand => argumentDerivative v operand
  | call _ arg => differentiate v arg
  | found => throw (.differentiation (.markerWithoutCall found.describe))

end

/-- The derivative as the rules build it, without the steps. -/
def rawDerivative (tree : Expr α) (v : String) : Except Fault (Expr α) :=
  match (differentiate v tree).run #[] with
  | .ok result _ => .ok result
  | .error fault _ => .error fault

def derivative (tree : Expr α) (v : String) : Except Fault (Expr α) := do
  (← tree.rawDerivative v).optimize

def derivativesFrom (v : String) : Nat → Expr α → Except Fault (List (Expr α))
  | 0, tree => pure [tree]
  | left + 1, tree => do
      let next ← tree.derivative v
      return tree :: (← derivativesFrom v left next)

def derivatives (tree : Expr α) (order : Int) (v : String) : Except Fault (List (Expr α)) :=
  if order < 0 then throw (.differentiation (.negativeOrder order))
  else do derivativesFrom v order.toNat (← tree.whole)

end Expr

end Fluxion
