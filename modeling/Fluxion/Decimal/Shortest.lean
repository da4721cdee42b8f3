import Fluxion.Decimal.Dyadic

/-!
The shortest decimal that reads back as a given double. The reals that round to
a double form an interval around it, its ends included exactly when the
significand is even. For one, two, up to seventeen digits the two neighbours of
the value on that decimal grid are tried; the first grid with a neighbour inside
the interval wins, and of two such neighbours the nearer.
-/

namespace Fluxion.Decimal

structure Scaled where
  digits : Nat
  exponent : Int
  deriving DecidableEq, Repr

structure Ratio where
  num : Nat
  den : Nat
  deriving DecidableEq, Repr

namespace Ratio

def scale (r : Ratio) (base : Nat) : Int → Ratio
  | .ofNat up => ⟨r.num * Nat.pow base up, r.den⟩
  | .negSucc down => ⟨r.num, r.den * Nat.pow base (down + 1)⟩

def floor (r : Ratio) : Nat := r.num / r.den

def le (a b : Ratio) : Bool := a.num * b.den ≤ b.num * a.den

def lt (a b : Ratio) : Bool := a.num * b.den < b.num * a.den

end Ratio

def digitCount (n : Nat) : Nat := if n = 0 then 0 else (Nat.toDigits 10 n).length

def leadingExponent (r : Ratio) : Int :=
  if r.den ≤ r.num then (digitCount r.floor : Int) - 1
  else -(digitCount ((r.den - 1) / r.num) : Int)

/-- The reals that round to a positive double, and the double itself. -/
structure Rounding where
  low : Ratio
  value : Ratio
  high : Ratio
  inclusive : Bool

namespace Rounding

/-- Below a power of two the neighbouring double is only half as far away. -/
def ofDyadic (d : Dyadic) : Rounding :=
  let quarter (n : Nat) : Ratio := (Ratio.mk n 1).scale 2 (d.exponent - 2)
  let narrow := d.significand = Dyadic.hiddenBit ∧ Dyadic.leastExponent < d.exponent
  { low := quarter (4 * d.significand - (if narrow then 1 else 2))
    value := quarter (4 * d.significand)
    high := quarter (4 * d.significand + 2)
    inclusive := d.significand % 2 = 0 }

def contains (r : Rounding) (x : Ratio) : Bool :=
  if r.inclusive then r.low.le x && x.le r.high else r.low.lt x && x.lt r.high

/-- The nearest point of the grid `10 ^ exponent` that reads back as the double,
the even one of two that are equally near. -/
def candidate? (r : Rounding) (exponent : Int) : Option Nat :=
  let onGrid (n : Nat) : Ratio := (Ratio.mk n 1).scale 10 exponent
  let below := (r.value.scale 10 (-exponent)).floor
  let above := below + 1
  match r.contains (onGrid below), r.contains (onGrid above) with
  | true, true =>
      let middle := (Ratio.mk (2 * below + 1) 2).scale 10 exponent
      if r.value.lt middle then some below
      else if middle.lt r.value then some above
      else some (if below % 2 = 0 then below else above)
  | true, false => some below
  | false, true => some above
  | false, false => none

def search (r : Rounding) (leading : Int) : Nat → Nat → Scaled
  | 0, count =>
      let exponent := leading - count + 1
      ⟨(r.value.scale 10 (-exponent)).floor, exponent⟩
  | left + 1, count =>
      let exponent := leading - count + 1
      match r.candidate? exponent with
      | some digits => ⟨digits, exponent⟩
      | none => search r leading left (count + 1)

end Rounding

def Scaled.trim (s : Scaled) : Scaled :=
  go s.digits.log2 s.digits s.exponent
where
  go : Nat → Nat → Int → Scaled
  | 0, digits, exponent => ⟨digits, exponent⟩
  | left + 1, digits, exponent =>
      if digits ≠ 0 ∧ digits % 10 = 0 then go left (digits / 10) (exponent + 1)
      else ⟨digits, exponent⟩

def shortest (d : Dyadic) : Scaled :=
  if d.significand = 0 then ⟨0, 0⟩
  else
    let r := Rounding.ofDyadic d
    (r.search (leadingExponent r.value) 17 1).trim

end Fluxion.Decimal
