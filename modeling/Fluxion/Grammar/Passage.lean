import Fluxion.Expr.Build
import Fluxion.Expr.Depth
import Fluxion.Lexeme.Scanner

/-!
What a parse reads and how far it has come. The end marker is never stepped
over, so only the lexemes in front of the first one can be read; they are kept
apart from the marker itself. The nesting counter and the place survive a parse,
failed or not, and the next parse of the same passage goes on from them.
-/

namespace Fluxion

def nestingLimit : Nat := 100

def depthLimit : Nat := 100

/-- What is fixed about a reading: the first end marker and, when they are known,
the lines of the text. -/
structure Passage where
  stop : Lexeme
  lines : Option (List String)

structure Cursor where
  /-- The lexemes in front of the end marker that are still to be read. -/
  ahead : List Lexeme
  /-- How many lexemes have been read. -/
  position : Nat
  /-- How many parentheses have been opened and not closed. -/
  nesting : Nat

/-- A step of a parse, which keeps the cursor when it fails. -/
abbrev Parse (β : Type) := EStateM Fault Cursor β

namespace Passage

/-- The passage of a list of lexemes, which must end with an end marker, and the
cursor at its start. -/
def ofLexemes (lexemes : List Lexeme) (lines : Option (List String)) :
    Except Fault (Passage × Cursor) :=
  match lexemes.getLast? with
  | none => throw .unterminatedLexemes
  | some last =>
      if last.isEnd then
        let stop := (lexemes.find? (·.isEnd)).getD last
        pure (⟨stop, lines⟩, ⟨lexemes.takeWhile (!·.isEnd), 0, 0⟩)
      else throw .unterminatedLexemes

def fault (passage : Passage) (lexeme : Lexeme) (complaint : Complaint) : Fault :=
  let line := passage.lines.bind (·[lexeme.line]?)
  .located .grammatical ⟨lexeme.line + 1, lexeme.column + 1, lexeme.text, line⟩ complaint

end Passage

namespace Cursor

def advance (c : Cursor) : Cursor := { c with ahead := c.ahead.tail, position := c.position + 1 }

def opened (c : Cursor) : Cursor := { c with nesting := c.nesting + 1 }

def closed (c : Cursor) : Cursor := { c with nesting := c.nesting - 1 }

end Cursor

end Fluxion
