import Fluxion.Decimal.Layout
import Fluxion.Decimal.Numeral
import Fluxion.Scalar.Basic

/-!
Doubles as the numbers of the engine. Arithmetic has a result only where that
result is finite; the trigonometric functions have none at an infinity and the
logarithm none at zero and below.
-/

namespace Fluxion.Double

open Fluxion.Decimal

def finite? (x : Float) : Option Float := if x.isFinite then some x else none

/-- A function that is defined everywhere but at the infinities. -/
def bounded (f : Float → Float) (x : Float) : Option Float := if x.isInf then none else some (f x)

/-- Cosine over sine, which may overflow to an infinity but has no value where the
sine is zero. -/
def cotangent (x : Float) : Option Float :=
  if x.isInf then none
  else if x.sin == 0.0 then none
  else some (x.cos / x.sin)

def logarithm (x : Float) : Option Float := if x ≤ 0.0 then none else some x.log

def apply : NamedFunction → Float → Option Float
  | .sin => bounded Float.sin
  | .cos => bounded Float.cos
  | .tg => bounded Float.tan
  | .ctg => cotangent
  | .ln => logarithm

instance : Scalar Float where
  ofNat := Float.ofNat
  isFinite := Float.isFinite
  toInt? x := (Dyadic.ofFloat? x).bind Dyadic.toInt?
  read? text := (Numeral.read? text).map Numeral.toFloat
  text := Layout.standard.float
  same x y := x == y
  near epsilon x y := (y - x).abs < epsilon
  tolerance := 1e-6
  isNegative x := x < 0.0
  isNonNegative x := 0.0 ≤ x
  neg x := -x
  add x y := finite? (x + y)
  sub x y := finite? (x - y)
  mul x y := finite? (x * y)
  div x y := finite? (x / y)
  pow x y := finite? (x.pow y)
  apply := apply
  euler := 2.718281828459045
  pi := 3.141592653589793

end Fluxion.Double
