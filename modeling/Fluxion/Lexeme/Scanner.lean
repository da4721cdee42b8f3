import Fluxion.Fault
import Fluxion.Lexeme.Basic

/-!
Cutting a text into lexemes. The scanner keeps the text that is still to be read
together with its place. Line breaks are blanks that start a new line. A run of
identifier characters is one lexeme; a run that starts with a digit must consist
of digits. Main statement: every lexeme but the end marker takes at least one
character from the text, so scanning ends.
-/

namespace Fluxion

open Fluxion.Text

structure Scanner where
  rest : List Char
  line : Nat
  column : Nat
  deriving DecidableEq, Repr

namespace Scanner

def ofText (text : String) : Scanner := ⟨text.toList, 0, 0⟩

def linesOf (text : String) : List String := (splitLines text.toList).map String.ofList
where
  splitLines : List Char → List (List Char)
    | [] => [[]]
    | c :: rest =>
        match splitLines rest with
        | [] => [[c]]
        | line :: others => if c = '\n' then [] :: line :: others else (c :: line) :: others

def skipFrom : List Char → Nat → Nat → Scanner
  | [], line, column => ⟨[], line, column⟩
  | c :: rest, line, column =>
      if c = '\n' then skipFrom rest (line + 1) 0
      else if isBlank c then skipFrom rest line (column + 1)
      else ⟨c :: rest, line, column⟩

def skipBlanks (s : Scanner) : Scanner := skipFrom s.rest s.line s.column

def run (s : Scanner) : List Char := s.rest.takeWhile isIdentifierChar

def take (s : Scanner) (kind : LexemeKind) (text : List Char) : Lexeme × Scanner :=
  (⟨kind, String.ofList text, s.line, s.column⟩,
    ⟨s.rest.drop text.length, s.line, s.column + text.length⟩)

inductive Defect
  | run (text : List Char)
  | symbol (c : Char)
  deriving DecidableEq, Repr

namespace Defect

def text : Defect → String
  | run text => String.ofList text
  | symbol c => String.singleton c

def complaint : Defect → Complaint
  | run text => .notANumber (String.ofList text)
  | symbol c => .badSymbol (String.singleton c)

end Defect

def read (s : Scanner) : Except Defect (Lexeme × Scanner) :=
  match s.rest with
  | [] => .ok (⟨.endMarker, "", s.line, s.column⟩, s)
  | c :: _ =>
      if isAsciiDigit c then
        if s.run.all isAsciiDigit then .ok (s.take .number s.run) else .error (.run s.run)
      else if isKey c then .ok (s.take (.ofKey c) [c])
      else if isIdentifierChar c then .ok (s.take .identifier s.run)
      else .error (.symbol c)

def fault (lines : List String) (s : Scanner) (defect : Defect) : Fault :=
  .located .lexical ⟨s.line + 1, s.column + 1, defect.text, lines[s.line]?⟩ defect.complaint

/-- Reads the next lexeme. On a defect the scanner stays in front of it, behind
the blanks. -/
def next (lines : List String) : EStateM Fault Scanner Lexeme := fun s =>
  match s.skipBlanks.read with
  | .ok (lexeme, behind) => .ok lexeme behind
  | .error defect => .error (s.skipBlanks.fault lines defect) s.skipBlanks

theorem skip_from_length (rest : List Char) (line column : Nat) :
    (skipFrom rest line column).rest.length ≤ rest.length := by
  induction rest generalizing line column with
  | nil => simp [skipFrom]
  | cons c rest ih =>
      simp only [skipFrom]
      split
      · exact Nat.le_succ_of_le (ih _ _)
      · split
        · exact Nat.le_succ_of_le (ih _ _)
        · simp

theorem skip_blanks_length (s : Scanner) : s.skipBlanks.rest.length ≤ s.rest.length :=
  skip_from_length _ _ _

theorem run_ne_nil {s : Scanner} {c : Char} {tail : List Char} (here : s.rest = c :: tail)
    (member : isIdentifierChar c = true) : s.run ≠ [] := by
  simp [run, here, member]

theorem is_identifier_char_of_is_ascii_digit (c : Char) (h : isAsciiDigit c = true) :
    isIdentifierChar c = true := by
  have bounds : 48 ≤ c.toNat ∧ c.toNat < 58 := by
    simp only [isAsciiDigit, Bool.and_eq_true, decide_eq_true_eq, Char.le_def,
      UInt32.le_iff_toNat_le] at h
    exact ⟨h.1, Nat.lt_succ_of_le h.2⟩
  have digits : ∀ n < 58, 48 ≤ n → isIdentifierChar (Char.ofNat n) = true := by decide
  rw [← Char.ofNat_toNat c]
  exact digits _ bounds.2 bounds.1

theorem read_length {s behind : Scanner} {lexeme : Lexeme} (done : s.read = .ok (lexeme, behind))
    (more : lexeme.isEnd = false) : behind.rest.length < s.rest.length := by
  unfold read at done
  split at done
  · rename_i none
    cases done
    simp [Lexeme.isEnd] at more
  · rename_i c tail here
    have shorter : ∀ kind text, text ≠ [] →
        (s.take kind text).2.rest.length < s.rest.length := by
      intro kind text nonempty
      have := List.length_pos_iff.2 nonempty
      simp [take, here]
      omega
    split at done
    · rename_i digit
      split at done
      · cases done
        exact shorter .number _ (run_ne_nil here (is_identifier_char_of_is_ascii_digit c digit))
      · cases done
    · split at done
      · cases done
        exact shorter (.ofKey c) [c] (by simp)
      · split at done
        · rename_i member
          cases done
          exact shorter .identifier _ (run_ne_nil here member)
        · cases done

/-- The lexemes from here on; the last one, and no other, is the end marker. -/
def lexemes (lines : List String) (s : Scanner) : Except Fault (List Lexeme) :=
  match done : s.skipBlanks.read with
  | .error defect => .error (s.skipBlanks.fault lines defect)
  | .ok (lexeme, behind) =>
      if more : lexeme.isEnd = false then
        have _shorter : behind.rest.length < s.rest.length :=
          Nat.lt_of_lt_of_le (read_length done more) s.skip_blanks_length
        (lexemes lines behind).map (lexeme :: ·)
      else .ok [lexeme]
termination_by s.rest.length

end Scanner

def lexemesOf (text : String) : Except Fault (List Lexeme) :=
  (Scanner.ofText text).lexemes (Scanner.linesOf text)

end Fluxion
