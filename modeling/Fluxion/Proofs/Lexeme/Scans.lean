import Fluxion.Lexeme.Scanner

/-!
Scanning a text that is put together from parts. A part scans to a list of lexemes,
given by kind and text, if the scanner gets them from it in front of any text that
does not carry on a run of identifier characters. Main statement: parts one after the
other scan to the lexemes of each, if no run goes over the boundary.
-/

namespace Fluxion

open Text

abbrev Spelling := LexemeKind × String

def Lexeme.spelling (lexeme : Lexeme) : Spelling := (lexeme.kind, lexeme.text)

namespace Scanner

/-- No run of identifier characters reaches into the text. -/
def Breaks (rest : List Char) : Prop := ∀ c ∈ rest.head?, isIdentifierChar c = false

/-- Scanning the text gives lexemes of these spellings and goes on behind it. -/
def Scans (text : List Char) (spellings : List Spelling) : Prop :=
  ∀ lines rest, Breaks rest → ∀ line column, ∃ read line' column',
    read.map Lexeme.spelling = spellings ∧
      (⟨text ++ rest, line, column⟩ : Scanner).lexemes lines =
        ((⟨rest, line', column'⟩ : Scanner).lexemes lines).map (read ++ ·)

theorem breaks_nil : Breaks [] := nofun

theorem breaks_cons {c : Char} {rest : List Char} :
    Breaks (c :: rest) ↔ isIdentifierChar c = false := by
  simp [Breaks]

theorem lexemes_of_read {lines : List String} {s behind : Scanner} {lexeme : Lexeme}
    (read : s.skipBlanks.read = .ok (lexeme, behind)) (more : lexeme.isEnd = false) :
    s.lexemes lines = (behind.lexemes lines).map (lexeme :: ·) := by
  rw [lexemes]
  split
  · rename_i defect failed
    rw [read] at failed
    cases failed
  · rename_i lexeme' behind' done
    rw [read] at done
    cases done
    rw [dif_pos more]

theorem lexemes_of_end {lines : List String} {s behind : Scanner} {lexeme : Lexeme}
    (read : s.skipBlanks.read = .ok (lexeme, behind)) (last : lexeme.isEnd = true) :
    s.lexemes lines = .ok [lexeme] := by
  rw [lexemes]
  split
  · rename_i defect failed
    rw [read] at failed
    cases failed
  · rename_i lexeme' behind' done
    rw [read] at done
    cases done
    rw [dif_neg (by simp [last])]

theorem lexemes_of_defect {lines : List String} {s : Scanner} {defect : Defect}
    (read : s.skipBlanks.read = .error defect) :
    s.lexemes lines = .error (s.skipBlanks.fault lines defect) := by
  rw [lexemes]
  split
  · rename_i defect' failed
    rw [read] at failed
    cases failed
    rfl
  · rename_i done
    rw [read] at done
    cases done

/-- Scanning depends only on where the blanks end. -/
theorem lexemes_congr {lines : List String} {s s' : Scanner}
    (same : s.skipBlanks = s'.skipBlanks) : s.lexemes lines = s'.lexemes lines := by
  cases read : s.skipBlanks.read with
  | error defect =>
      rw [lexemes, lexemes]
      split
      · rename_i defect' failed
        split
        · rename_i failed'
          rw [same] at failed ⊢
          rw [failed] at failed'
          cases failed'
          rfl
        · rename_i done
          rw [← same, read] at done
          cases done
      · rename_i done
        rw [read] at done
        cases done
  | ok result =>
      obtain ⟨lexeme, behind⟩ := result
      have read' := same ▸ read
      cases more : lexeme.isEnd with
      | false => rw [lexemes_of_read read more, lexemes_of_read read' more]
      | true => rw [lexemes_of_end read more, lexemes_of_end read' more]

theorem Scans.append {first second : List Char} {spellings spellings' : List Spelling}
    (left : Scans first spellings) (right : Scans second spellings')
    (breaks : ∀ rest, Breaks rest → Breaks (second ++ rest)) :
    Scans (first ++ second) (spellings ++ spellings') := by
  intro lines rest ends line column
  obtain ⟨read, line', column', spelled, scanned⟩ :=
    left lines (second ++ rest) (breaks rest ends) line column
  obtain ⟨read', line'', column'', spelled', scanned'⟩ := right lines rest ends line' column'
  refine ⟨read ++ read', line'', column'', by rw [List.map_append, spelled, spelled'], ?_⟩
  rw [List.append_assoc, scanned, scanned']
  cases (⟨rest, line'', column''⟩ : Scanner).lexemes lines <;> simp [Except.map]

theorem skip_blanks_of_not_blank {c : Char} {rest : List Char} {line column : Nat}
    (inked : isBlank c = false) :
    (⟨c :: rest, line, column⟩ : Scanner).skipBlanks = ⟨c :: rest, line, column⟩ := by
  have notBreak : c ≠ '\n' := by
    rintro rfl
    exact absurd inked (by decide)
  rw [skipBlanks, skipFrom, if_neg notBreak, if_neg (by simp [inked])]

theorem scans_of_read {text : List Char} {spelling : Spelling}
    (inked : ∀ c ∈ text.head?, isBlank c = false) (nonempty : text ≠ [])
    (more : spelling.1 ≠ .endMarker)
    (reads : ∀ rest, Breaks rest → ∀ line column,
      (⟨text ++ rest, line, column⟩ : Scanner).read =
        .ok (⟨spelling.1, spelling.2, line, column⟩, ⟨rest, line, column + text.length⟩)) :
    Scans text [spelling] := by
  intro lines rest ends line column
  refine ⟨[⟨spelling.1, spelling.2, line, column⟩], line, column + text.length, rfl, ?_⟩
  obtain ⟨c, tail, rfl⟩ := List.exists_cons_of_ne_nil nonempty
  refine lexemes_of_read ?_ ?_
  · rw [List.cons_append, skip_blanks_of_not_blank (inked c rfl), ← List.cons_append]
    exact reads rest ends line column
  · exact beq_false_of_ne more

theorem scans_nil : Scans [] [] := by
  intro lines rest _ line column
  refine ⟨[], line, column, rfl, ?_⟩
  rw [List.nil_append]
  cases (⟨rest, line, column⟩ : Scanner).lexemes lines <;> rfl

theorem lexemes_gap {lines : List String} {text : List Char} {line column : Nat} :
    (⟨' ' :: text, line, column⟩ : Scanner).lexemes lines =
      (⟨text, line, column + 1⟩ : Scanner).lexemes lines := by
  apply lexemes_congr
  rw [skipBlanks, skipFrom]
  exact if_neg (by decide)

theorem Scans.gap_cons {text : List Char} {spellings : List Spelling}
    (scans : Scans text spellings) : Scans (' ' :: text) spellings := by
  intro lines rest ends line column
  rw [List.cons_append, lexemes_gap]
  exact scans lines rest ends line (column + 1)

theorem key_cases {c : Char} (key : isKey c = true) : c ∈ keyChars := by
  simpa [isKey] using key

theorem identifier_char_of_key {c : Char} (key : isKey c = true) : isIdentifierChar c = false := by
  simp [isIdentifierChar, key]

theorem take_append {kind : LexemeKind} {text rest : List Char} {line column : Nat} :
    (⟨text ++ rest, line, column⟩ : Scanner).take kind text =
      (⟨kind, String.ofList text, line, column⟩, ⟨rest, line, column + text.length⟩) := by
  simp [take]

theorem not_blank_of_key {c : Char} (key : isKey c = true) : isBlank c = false := by
  have checks : keyChars.all (fun c => !isBlank c) = true := by decide
  simpa using List.all_eq_true.1 checks c (key_cases key)

theorem not_digit_of_key {c : Char} (key : isKey c = true) : isAsciiDigit c = false := by
  have checks : keyChars.all (fun c => !isAsciiDigit c) = true := by decide
  simpa using List.all_eq_true.1 checks c (key_cases key)

theorem of_key_cases (c : Char) : LexemeKind.ofKey c = .opening ∨
    LexemeKind.ofKey c = .closing ∨ LexemeKind.ofKey c = .operator := by
  unfold LexemeKind.ofKey
  split
  · exact .inl rfl
  · split
    · exact .inr (.inl rfl)
    · exact .inr (.inr rfl)

theorem key_not_end (c : Char) : LexemeKind.ofKey c ≠ .endMarker := by
  rcases of_key_cases c with kind | kind | kind <;> simp [kind]

theorem read_key {c : Char} (key : isKey c = true) (rest : List Char) (line column : Nat) :
    (⟨c :: rest, line, column⟩ : Scanner).skipBlanks.read =
      .ok (⟨LexemeKind.ofKey c, String.ofList [c], line, column⟩, ⟨rest, line, column + 1⟩) := by
  rw [skip_blanks_of_not_blank (not_blank_of_key key)]
  simp only [read, not_digit_of_key key, key, if_true, Bool.false_eq_true, if_false]
  rfl

theorem Scans.key_cons {c : Char} (key : isKey c = true) {text : List Char}
    {spellings : List Spelling} (scans : Scans text spellings) :
    Scans (c :: text) ((LexemeKind.ofKey c, String.ofList [c]) :: spellings) := by
  intro lines rest ends line column
  obtain ⟨read, line', column', spelled, scanned⟩ := scans lines rest ends line (column + 1)
  refine ⟨⟨LexemeKind.ofKey c, String.ofList [c], line, column⟩ :: read, line', column', ?_, ?_⟩
  · rw [List.map_cons, spelled]
    rfl
  · rw [List.cons_append, lexemes_of_read (read_key key _ line column)
      (beq_false_of_ne (key_not_end c)), scanned]
    cases (⟨rest, line', column'⟩ : Scanner).lexemes lines <;> rfl

/-- The run at the start of the text is all of it, if nothing carries it on. -/
theorem run_append {text rest : List Char} {line column : Nat}
    (members : ∀ c ∈ text, isIdentifierChar c = true) (ends : Breaks rest) :
    (⟨text ++ rest, line, column⟩ : Scanner).run = text := by
  rw [run, List.takeWhile_append_of_pos members]
  cases rest with
  | nil => simp
  | cons c rest =>
      rw [breaks_cons] at ends
      simp [ends]

theorem not_blank_of_identifier_char {c : Char} (member : isIdentifierChar c = true) :
    isBlank c = false := by
  simp only [isIdentifierChar, Bool.and_eq_true, Bool.not_eq_true'] at member
  exact member.1.2

theorem not_key_of_identifier_char {c : Char} (member : isIdentifierChar c = true) :
    isKey c = false := by
  simp only [isIdentifierChar, Bool.and_eq_true, Bool.not_eq_true'] at member
  exact member.2

theorem scans_name {text : List Char} (nonempty : text ≠ [])
    (members : ∀ c ∈ text, isIdentifierChar c = true)
    (starts : ∀ c ∈ text.head?, isAsciiDigit c = false) :
    Scans text [(.identifier, String.ofList text)] := by
  obtain ⟨c, tail, rfl⟩ := List.exists_cons_of_ne_nil nonempty
  have first := members c (by simp)
  have notDigit := starts c rfl
  refine scans_of_read (by simpa using not_blank_of_identifier_char first) nonempty nofun ?_
  intro rest ends line column
  have whole : (⟨c :: (tail ++ rest), line, column⟩ : Scanner).run = c :: tail :=
    run_append members ends
  rw [← take_append]
  simp only [read, List.cons_append, notDigit, not_key_of_identifier_char first, first, whole,
    if_true, Bool.false_eq_true, if_false]

theorem scans_digits {text : List Char} (nonempty : text ≠ [])
    (plain : ∀ c ∈ text, isAsciiDigit c = true) :
    Scans text [(.number, String.ofList text)] := by
  obtain ⟨c, tail, rfl⟩ := List.exists_cons_of_ne_nil nonempty
  have members : ∀ d ∈ c :: tail, isIdentifierChar d = true :=
    fun d member => is_identifier_char_of_is_ascii_digit d (plain d member)
  have first := members c (by simp)
  have digit := plain c (by simp)
  refine scans_of_read (by simpa using not_blank_of_identifier_char first) nonempty nofun ?_
  intro rest ends line column
  have whole : (⟨c :: (tail ++ rest), line, column⟩ : Scanner).run = c :: tail :=
    run_append members ends
  rw [← take_append]
  simp only [read, List.cons_append, digit, whole, List.all_eq_true.2 plain, if_true]

end Scanner

end Fluxion
