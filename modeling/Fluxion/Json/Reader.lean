import Fluxion.Decimal.Numeral
import Fluxion.Json.Value

/-!
Reading JSON. Every value takes at least one character from the text, so the
length of the text bounds the recursion.
-/

namespace Fluxion.Json

open Fluxion.Text (hexNumber? isAsciiDigit)

def isSpace (c : Char) : Bool := c == ' ' || c == '\t' || c == '\n' || c == '\r'

def skipSpaces (text : List Char) : List Char := text.dropWhile isSpace

def expect? (start text : List Char) : Option (List Char) :=
  if start.isPrefixOf text then some (text.drop start.length) else none

def replacement : Char := Char.ofNat 0xFFFD

def unit? (text : List Char) : Option (Nat × List Char) :=
  if 4 ≤ text.length then (hexNumber? (text.take 4)).map (·, text.drop 4) else none

/-- The character behind the `u` of an escape; a pair of surrogates is one. -/
def unicodeEscape? (text : List Char) : Option (Char × List Char) := do
  let (unit, rest) ← unit? text
  if 0xD800 ≤ unit ∧ unit < 0xDC00 then
    match (expect? ['\\', 'u'] rest).bind unit? with
    | some (low, behind) =>
        if 0xDC00 ≤ low ∧ low < 0xE000 then
          some (Char.ofNat (0x10000 + (unit - 0xD800) * 0x400 + (low - 0xDC00)), behind)
        else some (replacement, rest)
    | none => some (replacement, rest)
  else if 0xDC00 ≤ unit ∧ unit < 0xE000 then some (replacement, rest)
  else some (Char.ofNat unit, rest)

def simpleEscape? (c : Char) : Option Char :=
  if c = '"' ∨ c = '\\' ∨ c = '/' then some c
  else if c = 'n' then some '\n'
  else if c = 't' then some '\t'
  else if c = 'r' then some '\r'
  else if c = 'b' then some (Char.ofNat 0x08)
  else if c = 'f' then some (Char.ofNat 0x0C)
  else none

def readChars (before : List Char) : Nat → List Char → Option (List Char × List Char)
  | 0, _ => none
  | left + 1, text =>
      match text with
      | [] => none
      | '"' :: rest => some (before.reverse, rest)
      | '\\' :: 'u' :: rest => do
          let (c, behind) ← unicodeEscape? rest
          readChars (c :: before) left behind
      | '\\' :: c :: rest => do readChars ((← simpleEscape? c) :: before) left rest
      | c :: rest => readChars (c :: before) left rest

def readText (text : List Char) : Option (String × List Char) :=
  (readChars [] text.length text).map fun (chars, rest) => (String.ofList chars, rest)

def isNumberChar (c : Char) : Bool :=
  isAsciiDigit c || c == '-' || c == '+' || c == '.' || c == 'e' || c == 'E'

/-- A number is whole when it has neither a fraction nor an exponent. -/
def readNumber (text : List Char) : Option (Json × List Char) :=
  let digits := text.takeWhile isNumberChar
  let rest := text.dropWhile isNumberChar
  let (negative, size) := Decimal.Numeral.takeSign digits
  if size ≠ [] ∧ size.all isAsciiDigit then
    let n : Int := Decimal.digitsValue size
    some (int (if negative then -n else n), rest)
  else (Decimal.Numeral.read? (String.ofList digits)).map fun number =>
    (real number.toFloat, rest)

mutual

def readValue : Nat → List Char → Option (Json × List Char)
  | 0, _ => none
  | left + 1, text =>
      match skipSpaces text with
      | 'n' :: 'u' :: 'l' :: 'l' :: rest => some (null, rest)
      | 't' :: 'r' :: 'u' :: 'e' :: rest => some (bool true, rest)
      | 'f' :: 'a' :: 'l' :: 's' :: 'e' :: rest => some (bool false, rest)
      | '"' :: rest => (readText rest).map fun (value, behind) => (str value, behind)
      | '[' :: rest =>
          match expect? [']'] (skipSpaces rest) with
          | some behind => some (list [], behind)
          | none => (readItems left rest).map fun (items, behind) => (list items, behind)
      | '\x7b' :: rest =>
          match expect? ['\x7d'] (skipSpaces rest) with
          | some behind => some (object [], behind)
          | none => (readFields left rest).map fun (fields, behind) => (object fields, behind)
      | other => readNumber other

def readItems : Nat → List Char → Option (List Json × List Char)
  | 0, _ => none
  | left + 1, text => do
      let (item, rest) ← readValue left text
      match skipSpaces rest with
      | ',' :: behind =>
          let (items, final) ← readItems left behind
          some (item :: items, final)
      | ']' :: behind => some ([item], behind)
      | _ => none

def readFields : Nat → List Char → Option (List (String × Json) × List Char)
  | 0, _ => none
  | left + 1, text => do
      let afterQuote ← expect? ['"'] (skipSpaces text)
      let (name, afterName) ← readText afterQuote
      let afterColon ← expect? [':'] (skipSpaces afterName)
      let (value, rest) ← readValue left afterColon
      match skipSpaces rest with
      | ',' :: behind =>
          let (fields, final) ← readFields left behind
          some ((name, value) :: fields, final)
      | '\x7d' :: behind => some ([(name, value)], behind)
      | _ => none

end

def read? (text : String) : Option Json :=
  match readValue (text.length + 1) text.toList with
  | some (value, rest) => if skipSpaces rest = [] then some value else none
  | none => none

end Fluxion.Json
