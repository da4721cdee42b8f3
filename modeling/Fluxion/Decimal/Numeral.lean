import Fluxion.Text.Blank
import Fluxion.Text.Digit

/-!
Reading decimal numerals. A numeral has an optional sign and either digits with
an optional point and exponent, or one of the words for an infinity or for a
number that is none. Single underscores may separate digits, the digits may be
of any script, and blanks may surround the whole.
-/

namespace Fluxion.Decimal

open Fluxion.Text

/-- Makes blanks and digits of other scripts plain; any other character beyond
ASCII is in no numeral. A text of ASCII alone is left as it is. -/
def plainText? (text : List Char) : Option (List Char) :=
  if text.all (·.toNat < 128) then some text
  else text.mapM fun c =>
    if c.toNat < 127 then some c
    else if isBlank c then some ' '
    else (digitValue? c).map digitChar

def isMargin (c : Char) : Bool :=
  c == ' ' || c == '\t' || c == '\n' || c == '\r' || c.toNat == 0x0B || c.toNat == 0x0C

def trimMargin (text : List Char) : List Char :=
  ((text.dropWhile isMargin).reverse.dropWhile isMargin).reverse

/-- Drops the underscores that stand between two digits and refuses all others;
`afterDigit` says whether a digit came just before the text. -/
def dropUnderscores? (afterDigit : Bool) : List Char → Option (List Char)
  | [] => some []
  | c :: rest =>
      if c = '_' then
        if afterDigit && rest.head?.any isAsciiDigit then dropUnderscores? false rest else none
      else (dropUnderscores? (isAsciiDigit c) rest).map (c :: ·)

def digitsValue (digits : List Char) : Nat :=
  digits.foldl (fun total c => 10 * total + (c.toNat - '0'.toNat)) 0

inductive Numeral
  | decimal (negative : Bool) (digits : Nat) (exponent : Int)
  | infinity (negative : Bool)
  | notANumber
  deriving DecidableEq, Repr

namespace Numeral

def takeSign : List Char → Bool × List Char
  | '-' :: rest => (true, rest)
  | '+' :: rest => (false, rest)
  | rest => (false, rest)

def exponent? : List Char → Option Int
  | [] => some 0
  | mark :: rest =>
      if mark = 'e' ∨ mark = 'E' then
        let (negative, digits) := takeSign rest
        if digits ≠ [] ∧ digits.all isAsciiDigit then
          some (if negative then -(digitsValue digits : Int) else digitsValue digits)
        else none
      else none

def decimal? (negative : Bool) (text : List Char) : Option Numeral :=
  let whole := text.takeWhile isAsciiDigit
  let afterWhole := text.dropWhile isAsciiDigit
  let (fraction, afterFraction) : List Char × List Char :=
    match afterWhole with
    | '.' :: rest => (rest.takeWhile isAsciiDigit, rest.dropWhile isAsciiDigit)
    | rest => ([], rest)
  if whole = [] ∧ fraction = [] then none
  else (exponent? afterFraction).map fun exponent =>
    decimal negative (digitsValue (whole ++ fraction)) (exponent - fraction.length)

def unsigned? (negative : Bool) (text : List Char) : Option Numeral :=
  let word := text.map Char.toLower
  if word = "inf".toList ∨ word = "infinity".toList then some (.infinity negative)
  else if word = "nan".toList then some .notANumber
  else decimal? negative text

def read? (text : String) : Option Numeral := do
  let plain ← plainText? text.toList
  let bare ← dropUnderscores? false (trimMargin plain)
  let (negative, body) := takeSign bare
  unsigned? negative body

/-- Magnitudes whose leading digit is beyond these exponents are infinite or zero
as doubles, so the power of ten need not be formed. -/
def exponentLimit : Int := 400

def magnitude (digits : Nat) (exponent : Int) : Float :=
  let leading := exponent + (Nat.toDigits 10 digits).length
  if digits = 0 ∨ leading < -exponentLimit then 0.0
  else if exponentLimit < leading then 1.0 / 0.0
  else match exponent with
    | .ofNat up => Float.ofScientific digits false up
    | .negSucc down => Float.ofScientific digits true (down + 1)

def toFloat : Numeral → Float
  | decimal negative digits exponent =>
      let size := magnitude digits exponent
      if negative then -size else size
  | infinity negative => if negative then -(1.0 / 0.0) else 1.0 / 0.0
  | notANumber => 0.0 / 0.0

end Numeral

end Fluxion.Decimal
