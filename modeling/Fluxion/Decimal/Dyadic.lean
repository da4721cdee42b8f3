/-!
The exact value of a finite double: a sign, a whole significand and a power of
two. Every later question about digits is asked of these three numbers, in whole
number arithmetic.
-/

namespace Fluxion.Decimal

/-- The number `± significand · 2 ^ exponent`, the sign kept apart so that the
two zeros differ. -/
structure Dyadic where
  negative : Bool
  significand : Nat
  exponent : Int
  deriving DecidableEq, Repr

namespace Dyadic

def leastExponent : Int := -1074

def hiddenBit : Nat := Nat.pow 2 52

/-- The value of a double; an infinity or a number that is none has no value. -/
def ofFloat? (x : Float) : Option Dyadic :=
  let bits : Nat := x.toBits.toNat
  let negative : Bool := bits / Nat.pow 2 63 = 1
  let scale : Nat := bits / hiddenBit % Nat.pow 2 11
  let fraction : Nat := bits % hiddenBit
  if scale = 2047 then none
  else if scale = 0 then some ⟨negative, fraction, leastExponent⟩
  else some ⟨negative, fraction + hiddenBit, (scale : Int) - 1 + leastExponent⟩

def magnitude? (d : Dyadic) : Option Nat :=
  match d.exponent with
  | .ofNat up => some (d.significand * Nat.pow 2 up)
  | .negSucc down =>
      let divisor := Nat.pow 2 (down + 1)
      if d.significand % divisor = 0 then some (d.significand / divisor) else none

def toInt? (d : Dyadic) : Option Int :=
  d.magnitude?.map fun n => if d.negative then -(n : Int) else n

end Dyadic

end Fluxion.Decimal
