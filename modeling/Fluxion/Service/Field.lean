import Fluxion.Decimal.Numeral
import Fluxion.Json.Value
import Fluxion.Scalar.Double

/-!
Reading the fields of a request body. A value of another kind is taken where it
means the same; otherwise the field has a problem of a named kind. The problems of
all fields are collected.
-/

namespace Fluxion.Service

open Fluxion.Text

inductive ProblemKind
  | missing
  | stringType
  | intType
  | intParsing
  | intFromFloat
  | finiteNumber
  | greaterThanEqual
  | lessThanEqual
  | floatType
  | floatParsing
  | listType
  deriving DecidableEq, Repr

namespace ProblemKind

def key : ProblemKind → String
  | missing => "missing"
  | stringType => "string_type"
  | intType => "int_type"
  | intParsing => "int_parsing"
  | intFromFloat => "int_from_float"
  | finiteNumber => "finite_number"
  | greaterThanEqual => "greater_than_equal"
  | lessThanEqual => "less_than_equal"
  | floatType => "float_type"
  | floatParsing => "float_parsing"
  | listType => "list_type"

end ProblemKind

structure Problem where
  field : String
  kind : ProblemKind
  deriving DecidableEq, Repr

namespace Problem

/-- The order in which problems are listed: by field, then by kind. -/
def before (a b : Problem) : Bool :=
  a.field < b.field || (a.field == b.field && a.kind.key ≤ b.kind.key)

end Problem

inductive Checked (β : Type)
  | valid (value : β)
  | invalid (problems : List Problem)

namespace Checked

def apply {β γ : Type} : Checked (β → γ) → Checked β → Checked γ
  | valid f, valid value => valid (f value)
  | valid _, invalid problems => invalid problems
  | invalid problems, valid _ => invalid problems
  | invalid problems, invalid others => invalid (problems ++ others)

instance : Functor Checked where
  map f checked := apply (valid f) checked

instance : Seq Checked where
  seq f value := apply f (value ())

end Checked

abbrev FieldReader (β : Type) := String → Json → Checked β

def problem {β : Type} (field : String) (kind : ProblemKind) : Checked β :=
  .invalid [⟨field, kind⟩]

def readText : FieldReader String := fun field value =>
  match value with
  | .str text => .valid text
  | _ => problem field .stringType

def trimBlanks (text : List Char) : List Char :=
  ((text.dropWhile isBlank).reverse.dropWhile isBlank).reverse

/-- A whole number in text: an optional sign, digits with single underscores between
them, and no fraction but zeros. -/
def wholeNumber? (text : String) : Option Int := do
  let (negative, body) := Decimal.Numeral.takeSign (trimBlanks text.toList)
  let whole := body.takeWhile (· ≠ '.')
  let fraction := (body.dropWhile (· ≠ '.')).drop 1
  let digits ← Decimal.dropUnderscores? false whole
  if digits ≠ [] ∧ digits.all isAsciiDigit ∧ fraction.all (· = '0') then
    let n : Int := Decimal.digitsValue digits
    some (if negative then -n else n)
  else none

def readInt : FieldReader Int := fun field value =>
  match value with
  | .int n => .valid n
  | .bool b => .valid (if b then 1 else 0)
  | .real x =>
      match Scalar.toInt? x with
      | some n => .valid n
      | none => problem field (if x.isFinite then .intFromFloat else .finiteNumber)
  | .str text =>
      match wholeNumber? text with
      | some n => .valid n
      | none => problem field .intParsing
  | _ => problem field .intType

def readBounded (low high : Int) : FieldReader Int := fun field value =>
  match readInt field value with
  | .valid n =>
      if n < low then problem field .greaterThanEqual
      else if high < n then problem field .lessThanEqual
      else .valid n
  | invalid => invalid

def readFloat : FieldReader Float := fun field value =>
  match value with
  | .int n =>
      let x := Float.ofInt n
      if x.isFinite then .valid x else problem field .floatType
  | .bool b => .valid (if b then 1.0 else 0.0)
  | .real x => .valid x
  | .str text =>
      let trimmed := trimBlanks text.toList
      match if trimmed.all (·.toNat < 128) then Scalar.read? (String.ofList trimmed) else none with
      | some x => .valid x
      | none => problem field .floatParsing
  | _ => problem field .floatType

def readItems {β : Type} (read : FieldReader β) (field : String) :
    Nat → List Json → Checked (List β)
  | _, [] => .valid []
  | i, item :: rest =>
      List.cons <$> read (field ++ "." ++ toString i) item <*> readItems read field (i + 1) rest

def readList {β : Type} (read : FieldReader β) : FieldReader (List β) := fun field value =>
  match value with
  | .list items => readItems read field 0 items
  | _ => problem field .listType

def readNullable {β : Type} (read : FieldReader β) : FieldReader (Option β) := fun field value =>
  match value with
  | .null => .valid none
  | value => some <$> read field value

def required {β : Type} (body : Json) (field : String) (read : FieldReader β) : Checked β :=
  match body.field? field with
  | some value => read field value
  | none => problem field .missing

def defaulted {β : Type} (body : Json) (field : String) (default : β) (read : FieldReader β) :
    Checked β :=
  match body.field? field with
  | some value => read field value
  | none => .valid default

end Fluxion.Service
