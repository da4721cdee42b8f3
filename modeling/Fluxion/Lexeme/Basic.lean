import Fluxion.Text.Blank
import Fluxion.Text.Digit
import Fluxion.Text.Printable

/-!
Lexemes and the characters they are made of. Operators and parentheses stand for
themselves; every other printable character that is not blank belongs to a run,
whatever its script.
-/

namespace Fluxion

open Fluxion.Text

def keyChars : List Char := ['+', '-', '*', '/', '^', '(', ')']

def isKey (c : Char) : Bool := keyChars.contains c

def isIdentifierChar (c : Char) : Bool := isPrintable c && !isBlank c && !isKey c

def occursIn (text : List Char) : List Char → Bool
  | [] => text == []
  | c :: rest => text.isPrefixOf (c :: rest) || occursIn text rest

/-- The text is a non-empty stretch of the key characters in their listed order. -/
def isKeyText (text : List Char) : Bool := text != [] && occursIn text keyChars

/-- The text lies between "0" and "9" in dictionary order. -/
def isDigitText (text : List Char) : Bool :=
  match text with
  | [] => false
  | first :: rest => '0' ≤ first && (first < '9' || (first == '9' && rest == []))

/-- The text may stand in an identifier: printable throughout, not all blank and
not itself a key. -/
def isIdentifierText (text : List Char) : Bool :=
  text != [] && text.all isPrintable && !isAllBlank text && !isKeyText text

inductive LexemeKind
  | number
  | identifier
  | operator
  | opening
  | closing
  | endMarker
  /-- A kind that no scanner produces. -/
  | other (label : String)
  deriving DecidableEq, Repr

namespace LexemeKind

def label : LexemeKind → String
  | number => "NUMBER"
  | identifier => "IDENT"
  | operator => "OPERATOR"
  | opening => "LPAREN"
  | closing => "RPAREN"
  | endMarker => "EOF"
  | other label => label

def ofLabel (label : String) : LexemeKind :=
  match [number, identifier, operator, opening, closing, endMarker].find? (·.label == label) with
  | some kind => kind
  | none => other label

def ofKey (c : Char) : LexemeKind :=
  if c = '(' then opening else if c = ')' then closing else operator

end LexemeKind

/-- A lexeme with its place, line and column counted from zero. -/
structure Lexeme where
  kind : LexemeKind
  text : String
  line : Nat
  column : Nat
  deriving DecidableEq, Repr

namespace Lexeme

def isEnd (lexeme : Lexeme) : Bool := lexeme.kind == .endMarker

def spells (lexeme : Lexeme) (text : String) : Bool := !lexeme.isEnd && lexeme.text == text

def describe (lexeme : Lexeme) : String :=
  "Lexeme(" ++ lexeme.kind.label ++ ", '" ++ lexeme.text ++ "', " ++
    toString (lexeme.line + 1) ++ ":" ++ toString (lexeme.column + 1) ++ ")"

end Lexeme

end Fluxion
