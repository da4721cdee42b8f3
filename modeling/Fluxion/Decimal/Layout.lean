import Fluxion.Decimal.Shortest

/-!
How the shortest digits of a double are laid out as text: positional between two
exponents, with an exponent mark outside them. One record holds the decisions of
the format that this library writes.
-/

namespace Fluxion.Decimal

structure Layout where
  /-- The least exponent of the leading digit that is written positionally. -/
  leastPositional : Int
  /-- The first exponent of the leading digit that is written with a mark again. -/
  endPositional : Int
  /-- The least number of digits of a marked exponent. -/
  exponentWidth : Nat

/-- Doubles are positional from 0.0001 on and below 10 ^ 16, and a marked
exponent has a sign and at least two digits. -/
def Layout.standard : Layout := ⟨-4, 16, 2⟩

namespace Layout

def padLeft (width : Nat) (digits : List Char) : List Char :=
  List.replicate (width - digits.length) '0' ++ digits

/-- Digits with the point after the first `whole` of them; a whole number keeps
one digit after the point. -/
def positional (digits : List Char) (leading : Int) : List Char :=
  match leading with
  | .ofNat n =>
      let whole := n + 1
      let front := digits.take whole
      let back := digits.drop whole
      front ++ List.replicate (whole - front.length) '0' ++
        '.' :: (if back = [] then ['0'] else back)
  | .negSucc n => '0' :: '.' :: List.replicate n '0' ++ digits

def marked (layout : Layout) (digits : List Char) (leading : Int) : List Char :=
  let tail := digits.drop 1
  let sign := if leading < 0 then '-' else '+'
  digits.take 1 ++ (if tail = [] then [] else '.' :: tail) ++
    'e' :: sign :: padLeft layout.exponentWidth (Nat.toDigits 10 leading.natAbs)

def magnitude (layout : Layout) (s : Scaled) : List Char :=
  let digits := Nat.toDigits 10 s.digits
  let leading := s.exponent + digits.length - 1
  if layout.leastPositional ≤ leading ∧ leading < layout.endPositional then
    positional digits leading
  else layout.marked digits leading

def float (layout : Layout) (x : Float) : String :=
  match Dyadic.ofFloat? x with
  | some d => String.ofList ((if d.negative then ['-'] else []) ++ layout.magnitude (shortest d))
  | none => if x.isNaN then "nan" else if x < 0 then "-inf" else "inf"

end Layout

end Fluxion.Decimal
