import Fluxion.Proofs.Lexeme.Cut
import Mathlib.Data.List.Forall2
import Mathlib.Data.List.GetD

/-!
Scanning is splitting. The pieces of the cut lines, each at its place, decide what
scanning gives: the first piece that offends is reported, and where none does the keys
and the runs are the lexemes. Main statement: that, with the places of the lexemes and
of the report.
-/

namespace Fluxion

open Text

namespace Piece

/-- No lexeme has this text: a character of no class, or a run that starts as a number
and does not go on as one. -/
def offends : Piece → Bool
  | stray _ => true
  | run text => text.head?.any isAsciiDigit && !text.all isAsciiDigit
  | _ => false

def kind? : Piece → Option LexemeKind
  | key c => some (.ofKey c)
  | run text => some (if text.head?.any isAsciiDigit then .number else .identifier)
  | _ => none

def complaint : Piece → Complaint
  | stray c => .badSymbol (String.ofList [c])
  | piece => .notANumber (String.ofList piece.text)

end Piece

/-- A piece at its place in the text, line and column counted from zero. -/
structure PlacedPiece where
  piece : Piece
  line : Nat
  column : Nat

namespace PlacedPiece

def lexeme? (placed : PlacedPiece) : Option Lexeme :=
  placed.piece.kind?.map fun kind =>
    ⟨kind, String.ofList placed.piece.text, placed.line, placed.column⟩

def fault (lines : List String) (placed : PlacedPiece) : Fault :=
  .located .lexical
    ⟨placed.line + 1, placed.column + 1, String.ofList placed.piece.text, lines[placed.line]?⟩
    placed.piece.complaint

end PlacedPiece

def place (line : Nat) : Nat → List Piece → List PlacedPiece
  | _, [] => []
  | column, piece :: rest => ⟨piece, line, column⟩ :: place line (column + piece.text.length) rest

def placeLines : Nat → List (List Piece) → List PlacedPiece
  | _, [] => []
  | line, pieces :: rest => place line 0 pieces ++ placeLines (line + 1) rest

def ending : Nat → Nat → List (List Char) → Lexeme
  | line, column, [] => ⟨.endMarker, "", line, column⟩
  | line, column, [last] => ⟨.endMarker, "", line, column + last.length⟩
  | line, _, _ :: next :: rest => ending (line + 1) 0 (next :: rest)

def outcome (lines : List String) (pieces : List PlacedPiece) (last : Lexeme) :
    Except Fault (List Lexeme) :=
  match pieces.find? fun placed => placed.piece.offends with
  | some bad => .error (bad.fault lines)
  | none => .ok (pieces.filterMap PlacedPiece.lexeme? ++ [last])

section

variable {lines : List String} {placed : PlacedPiece} {pieces : List PlacedPiece}
  {last lexeme : Lexeme}

theorem outcome_offends (offends : placed.piece.offends = true) :
    outcome lines (placed :: pieces) last = .error (placed.fault lines) := by
  unfold outcome
  rw [List.find?_cons_of_pos (by exact offends)]

theorem outcome_lexeme (sound : placed.piece.offends = false)
    (isLexeme : placed.lexeme? = some lexeme) :
    outcome lines (placed :: pieces) last = (outcome lines pieces last).map (lexeme :: ·) := by
  unfold outcome
  rw [List.find?_cons_of_neg (by simp [sound]), List.filterMap_cons_some isLexeme]
  cases pieces.find? fun placed => placed.piece.offends <;> rfl

section

variable {gap : List PlacedPiece} (blanks : ∀ placed ∈ gap, ∃ c, placed.piece = .blank c)

include blanks

theorem no_lexemes_of_blanks : gap.filterMap PlacedPiece.lexeme? = [] := by
  refine List.filterMap_eq_nil_iff.2 fun placed member => ?_
  obtain ⟨c, piece⟩ := blanks placed member
  rw [PlacedPiece.lexeme?, piece]
  rfl

theorem find_behind_blanks :
    (gap ++ pieces).find? (fun placed => placed.piece.offends) =
      pieces.find? fun placed => placed.piece.offends := by
  have none : gap.find? (fun placed => placed.piece.offends) = none := by
    refine List.find?_eq_none.2 fun placed member => ?_
    obtain ⟨c, piece⟩ := blanks placed member
    simp [piece, Piece.offends]
  rw [List.find?_append, none, Option.none_or]

theorem outcome_behind_blanks : outcome lines (gap ++ pieces) last = outcome lines pieces last := by
  unfold outcome
  rw [find_behind_blanks blanks, List.filterMap_append, no_lexemes_of_blanks blanks,
    List.nil_append]

end

theorem not_end_of_piece (isLexeme : placed.lexeme? = some lexeme) : lexeme.isEnd = false := by
  obtain ⟨kind, isKind, rfl⟩ := Option.map_eq_some_iff.1 isLexeme
  refine beq_false_of_ne ?_
  cases piece : placed.piece with
  | blank c | stray c =>
      rw [piece] at isKind
      cases isKind
  | key c =>
      rw [piece] at isKind
      cases isKind
      exact Scanner.key_not_end c
  | run text =>
      rw [piece] at isKind
      cases isKind
      show (if text.head?.any isAsciiDigit then LexemeKind.number else .identifier) ≠ .endMarker
      split <;> decide

end

theorem ending_append (text first : List Char) (others : List (List Char)) (line column : Nat) :
    ending line column ((text ++ first) :: others) =
      ending line (column + text.length) (first :: others) := by
  cases others with
  | nil => rw [ending, ending, List.length_append, Nat.add_assoc]
  | cons next rest => rfl

namespace Scanner

open linesOf

theorem split_lines_cons (text : List Char) :
    ∃ first others, splitLines text = first :: others := by
  apply List.exists_cons_of_ne_nil
  cases text with
  | nil => nofun
  | cons c rest =>
      rw [splitLines]
      split
      · nofun
      · split <;> nofun

theorem split_lines_break {rest first : List Char} {others : List (List Char)}
    (split : splitLines rest = first :: others) :
    splitLines ('\n' :: rest) = [] :: first :: others := by
  rw [splitLines, split]
  rfl

theorem split_lines_append {text rest first : List Char} {others : List (List Char)}
    (inside : ∀ c ∈ text, c ≠ '\n') (split : splitLines rest = first :: others) :
    splitLines (text ++ rest) = (text ++ first) :: others := by
  induction text with
  | nil => exact split
  | cons c text induction =>
      have tail := induction fun d member => inside d (List.mem_cons_of_mem c member)
      rw [List.cons_append, splitLines, tail]
      exact if_neg (inside c (by simp))

def pieces (s : Scanner) : List PlacedPiece :=
  match splitLines s.rest with
  | [] => []
  | first :: others => place s.line s.column (cut first) ++ placeLines (s.line + 1) (others.map cut)

def finish (s : Scanner) : Lexeme := ending s.line s.column (splitLines s.rest)

variable {lines : List String} {line column : Nat} {rest : List Char}

theorem pieces_of_empty {s : Scanner} (empty : s.rest = []) : s.pieces = [] := by
  rw [pieces, empty]
  rfl

theorem finish_of_empty {s : Scanner} (empty : s.rest = []) :
    s.finish = ⟨.endMarker, "", s.line, s.column⟩ := by
  rw [finish, empty]
  rfl

theorem pieces_break (rest : List Char) (line column : Nat) :
    pieces ⟨'\n' :: rest, line, column⟩ = pieces ⟨rest, line + 1, 0⟩ ∧
      finish ⟨'\n' :: rest, line, column⟩ = finish ⟨rest, line + 1, 0⟩ := by
  obtain ⟨first, others, split⟩ := split_lines_cons rest
  simp only [pieces, finish, split_lines_break split, split]
  exact ⟨rfl, rfl⟩

/-- The first piece of the text, if that is where the cut of the line ends it. -/
theorem pieces_append (piece : Piece) (rest : List Char) (line column : Nat)
    (inside : ∀ c ∈ piece.text, c ≠ '\n')
    (cuts : ∀ first others, splitLines rest = first :: others →
      cut (piece.text ++ first) = piece :: cut first) :
    pieces ⟨piece.text ++ rest, line, column⟩ =
        ⟨piece, line, column⟩ :: pieces ⟨rest, line, column + piece.text.length⟩ ∧
      finish ⟨piece.text ++ rest, line, column⟩ =
        finish ⟨rest, line, column + piece.text.length⟩ := by
  obtain ⟨first, others, split⟩ := split_lines_cons rest
  have pieceFirst := cuts first others split
  constructor
  · simp only [pieces, split_lines_append inside split, split, pieceFirst]
    rfl
  · simp only [finish, split_lines_append inside split, split, ending_append]

theorem ne_break_of_not_blank {c : Char} (inked : isBlank c = false) : c ≠ '\n' := by
  rintro rfl
  exact absurd inked (by decide)

theorem cut_starts_no_run {first : List Char} {others : List (List Char)} (ends : Breaks rest)
    (split : splitLines rest = first :: others) : StartsNoRun (cut first) := by
  cases rest with
  | nil =>
      cases split
      exact nofun
  | cons c rest =>
      rw [breaks_cons] at ends
      obtain ⟨tail, others', splitTail⟩ := split_lines_cons rest
      by_cases newline : c = '\n'
      · subst newline
        rw [split_lines_break splitTail] at split
        cases split
        exact nofun
      · have single := split_lines_append (List.forall_mem_singleton.2 newline) splitTail
        cases single.symm.trans split
        have starts : ∃ piece : Piece, piece.isRun = false ∧
            cut (c :: tail) = piece :: cut tail := by
          by_cases blank : isBlank c = true
          · exact ⟨.blank c, rfl, cut_blank blank tail⟩
          by_cases key : isKey c = true
          · exact ⟨.key c, rfl, cut_key key tail⟩
          · simp only [Bool.not_eq_true] at blank key
            exact ⟨.stray c, rfl, cut_stray ⟨blank, key, ends⟩ tail⟩
        obtain ⟨piece, notRun, same⟩ := starts
        intro piece' first
        rw [List.singleton_append, same] at first
        cases first
        exact notRun

/-- What is read where no blanks are in front: the end of the text, a piece that is a lexeme, or
one that offends. -/
inductive Finds (s : Scanner) : Except Defect (Lexeme × Scanner) → Prop
  | ending (empty : s.rest = []) : Finds s (.ok (⟨.endMarker, "", s.line, s.column⟩, s))
  | lexeme {placed : PlacedPiece} {lexeme : Lexeme} {behind : Scanner}
      (starts : s.pieces = placed :: behind.pieces) (last : s.finish = behind.finish)
      (sound : placed.piece.offends = false) (isLexeme : placed.lexeme? = some lexeme) :
      Finds s (.ok (lexeme, behind))
  | defect {placed : PlacedPiece} {others : List PlacedPiece} {tail : List Char} {defect : Defect}
      (starts : s.pieces = placed :: others) (offends : placed.piece.offends = true)
      (here : placed.line = s.line ∧ placed.column = s.column)
      (stands : s.rest = placed.piece.text ++ tail)
      (reports : ∀ lines, s.fault lines defect = placed.fault lines) : Finds s (.error defect)

theorem finds_stray {c : Char} (stray : (Piece.stray c).Proper) (rest : List Char)
    (line column : Nat) : Finds ⟨c :: rest, line, column⟩ (read ⟨c :: rest, line, column⟩) := by
  obtain ⟨inked, key, member⟩ := stray
  have notDigit : isAsciiDigit c = false := by
    by_contra digit
    rw [is_identifier_char_of_is_ascii_digit c (by simpa using digit)] at member
    cases member
  have starts := (pieces_append (.stray c) rest line column
    (by simpa [Piece.text] using ne_break_of_not_blank inked)
    fun first _ _ => cut_stray ⟨inked, key, member⟩ first).1
  have reads : read ⟨c :: rest, line, column⟩ = .error (.symbol c) := by
    simp only [read, notDigit, key, member, Bool.false_eq_true, if_false]
  rw [reads]
  exact .defect starts rfl ⟨rfl, rfl⟩ rfl fun _ => rfl

theorem finds_key {c : Char} (key : isKey c = true) (rest : List Char) (line column : Nat) :
    Finds ⟨c :: rest, line, column⟩ (read ⟨c :: rest, line, column⟩) := by
  have inked := not_blank_of_key key
  obtain ⟨starts, last⟩ := pieces_append (.key c) rest line column
    (by simpa [Piece.text] using ne_break_of_not_blank inked) fun first _ _ => cut_key key first
  have reads := read_key key rest line column
  rw [skip_blanks_of_not_blank inked] at reads
  rw [reads]
  exact .lexeme starts last rfl rfl

/-- A run that starts here is read as a whole, or reported as a whole. -/
theorem finds_run {text : List Char} (proper : (Piece.run text).Proper) (ends : Breaks rest)
    (line column : Nat) :
    Finds ⟨text ++ rest, line, column⟩ (read ⟨text ++ rest, line, column⟩) := by
  obtain ⟨starts, last⟩ := pieces_append (.run text) rest line column
    (fun d inside => ne_break_of_not_blank (not_blank_of_identifier_char (proper.2 d inside)))
    fun first others split => cut_run proper (cut_starts_no_run ends split)
  obtain ⟨nonempty, members⟩ := proper
  obtain ⟨c, tail, rfl⟩ := List.exists_cons_of_ne_nil nonempty
  have member := members c (by simp)
  have whole : (⟨c :: (tail ++ rest), line, column⟩ : Scanner).run = c :: tail :=
    run_append members ends
  have reads : read ⟨c :: (tail ++ rest), line, column⟩ =
      if (Piece.run (c :: tail)).offends then .error (.run (c :: tail))
      else .ok (take ⟨c :: tail ++ rest, line, column⟩
        (if (c :: tail).head?.any isAsciiDigit then .number else .identifier) (c :: tail)) := by
    simp only [read, whole, Piece.offends, List.head?_cons, Option.any_some, List.cons_append]
    by_cases digit : isAsciiDigit c = true
    · by_cases plain : (c :: tail).all isAsciiDigit = true
      · simp [digit, plain]
      · simp [digit, plain]
    · simp [digit, not_key_of_identifier_char member, member]
  rw [List.cons_append, reads]
  by_cases offends : (Piece.run (c :: tail)).offends = true
  · rw [if_pos offends]
    exact .defect starts offends ⟨rfl, rfl⟩ rfl fun _ => rfl
  · rw [if_neg offends, take_append]
    exact .lexeme starts last (by simpa using offends) rfl

theorem exists_run {c : Char} (member : isIdentifierChar c = true) (rest : List Char) :
    ∃ text behind, c :: rest = text ++ behind ∧ (Piece.run text).Proper ∧ Breaks behind ∧
      behind.length ≤ rest.length := by
  refine ⟨(c :: rest).takeWhile isIdentifierChar, (c :: rest).dropWhile isIdentifierChar,
    List.takeWhile_append_dropWhile.symm, ⟨?_, ?_⟩, ?_, ?_⟩
  · simp [member]
  · exact List.all_eq_true.1 List.all_takeWhile
  · intro d first
    have stops := List.head?_dropWhile_not isIdentifierChar (c :: rest)
    rw [Option.mem_def.1 first] at stops
    simpa using stops
  · rw [List.dropWhile_cons_of_pos member]
    exact (List.dropWhile_suffix _).length_le

theorem finds {s : Scanner} (inked : ∀ c ∈ s.rest.head?, isBlank c = false) :
    s.Finds s.read := by
  obtain ⟨rest, line, column⟩ := s
  cases rest with
  | nil => exact .ending rfl
  | cons c rest =>
      have inked := inked c rfl
      by_cases key : isKey c = true
      · exact finds_key key rest line column
      by_cases member : isIdentifierChar c = true
      · obtain ⟨text, behind, same, proper, ends, -⟩ := exists_run member rest
        rw [same]
        exact finds_run proper ends line column
      · simp only [Bool.not_eq_true] at key member
        exact finds_stray ⟨inked, key, member⟩ rest line column

theorem inked_behind_blanks (s : Scanner) : ∀ c ∈ s.skipBlanks.rest.head?, isBlank c = false := by
  obtain ⟨rest, line, column⟩ := s
  induction rest generalizing line column with
  | nil => exact nofun
  | cons c rest induction =>
      rw [skipBlanks, skipFrom]
      split
      · exact induction (line + 1) 0
      · split
        · exact induction line (column + 1)
        · rename_i inked
          simpa using inked

theorem pieces_skip (s : Scanner) :
    ∃ gap, s.pieces = gap ++ s.skipBlanks.pieces ∧ s.finish = s.skipBlanks.finish ∧
      ∀ placed ∈ gap, ∃ c, placed.piece = .blank c := by
  obtain ⟨rest, line, column⟩ := s
  induction rest generalizing line column with
  | nil => exact ⟨[], rfl, rfl, List.forall_mem_nil _⟩
  | cons c rest induction =>
      rw [skipBlanks, skipFrom]
      by_cases newline : c = '\n'
      · subst newline
        obtain ⟨starts, last⟩ := pieces_break rest line column
        rw [if_pos rfl, starts, last]
        exact induction (line + 1) 0
      rw [if_neg newline]
      by_cases blank : isBlank c = true
      · obtain ⟨starts, last⟩ := pieces_append (.blank c) rest line column
          (by simpa [Piece.text] using newline) fun first _ _ => cut_blank blank first
        obtain ⟨gap, rests, lasts, blanks⟩ := induction line (column + 1)
        rw [if_pos blank]
        refine ⟨⟨.blank c, line, column⟩ :: gap, ?_, last.trans lasts, ?_⟩
        · exact starts.trans (congrArg _ rests)
        · exact List.forall_mem_cons.2 ⟨⟨c, rfl⟩, blanks⟩
      · rw [if_neg blank]
        exact ⟨[], rfl, rfl, List.forall_mem_nil _⟩

/-- Scanning gives what the pieces come to. -/
theorem lexemes_eq_outcome (s : Scanner) :
    s.lexemes lines = outcome lines s.pieces s.finish := by
  obtain ⟨gap, rests, lasts, blanks⟩ := s.pieces_skip
  rw [rests, lasts, outcome_behind_blanks blanks]
  have found := finds s.inked_behind_blanks
  cases reads : s.skipBlanks.read with
  | error defect =>
      rw [reads] at found
      cases found with
      | defect starts offends here stands reports =>
          rw [lexemes_of_defect reads, starts, outcome_offends offends, reports]
  | ok result =>
      rw [reads] at found
      cases found with
      | ending empty =>
          rw [lexemes_of_end reads rfl, pieces_of_empty empty, finish_of_empty empty]
          rfl
      | lexeme starts last sound isLexeme =>
          have more := not_end_of_piece isLexeme
          have _shorter := Nat.lt_of_lt_of_le (read_length reads more) s.skip_blanks_length
          rw [lexemes_of_read reads more, starts, last, outcome_lexeme sound isLexeme,
            lexemes_eq_outcome]
termination_by s.rest.length

end Scanner

end Fluxion
