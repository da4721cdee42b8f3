import Fluxion.Proofs.Lexeme.Tokens
import Mathlib.Logic.Function.Iterate

/-!
Reading a text lexeme by lexeme, with as many calls as one likes on one scanner. Every call
passes some text and none goes back; what it passes is the blanks in front and the lexeme that
it answers. The first call that answers no lexeme of the text stands at the end or in front of
what offends, and all later calls repeat it. Main statement: that, with the lexemes in front
of the first piece that offends, and scanning the text at once as these calls put together.
-/

namespace Fluxion

open Text

def soundLexemes (pieces : List PlacedPiece) : List Lexeme :=
  (pieces.takeWhile fun placed => !placed.piece.offends).filterMap PlacedPiece.lexeme?

section

variable {placed : PlacedPiece} {pieces gap : List PlacedPiece} {lexeme : Lexeme}

theorem sound_lexemes_cons (sound : placed.piece.offends = false)
    (isLexeme : placed.lexeme? = some lexeme) :
    soundLexemes (placed :: pieces) = lexeme :: soundLexemes pieces := by
  rw [soundLexemes, List.takeWhile_cons_of_pos (by simp [sound]),
    List.filterMap_cons_some isLexeme, soundLexemes]

theorem sound_lexemes_offends (offends : placed.piece.offends = true) :
    soundLexemes (placed :: pieces) = [] := by
  rw [soundLexemes, List.takeWhile_cons_of_neg (by simp [offends]), List.filterMap_nil]

theorem sound_lexemes_behind_blanks (blanks : ∀ placed ∈ gap, ∃ c, placed.piece = .blank c) :
    soundLexemes (gap ++ pieces) = soundLexemes pieces := by
  rw [soundLexemes, List.takeWhile_append_of_pos, List.filterMap_append,
    no_lexemes_of_blanks blanks, List.nil_append, soundLexemes]
  intro placed member
  obtain ⟨c, piece⟩ := blanks placed member
  rw [piece]
  rfl

end

namespace Scanner

def placeBehind (place : Nat × Nat) (c : Char) : Nat × Nat :=
  if c = '\n' then (place.1 + 1, 0) else (place.1, place.2 + 1)

structure Passes (s : Scanner) (text : List Char) (s' : Scanner) : Prop where
  rest : s.rest = text ++ s'.rest
  place : (s'.line, s'.column) = text.foldl placeBehind (s.line, s.column)

/-- In the order of the text, a scanner is not in front of another one. -/
def Reaches (s' s : Scanner) : Prop :=
  s.line < s'.line ∨ s.line = s'.line ∧ s.column ≤ s'.column

def call (lines : List String) (s : Scanner) : Except Fault Lexeme × Scanner :=
  match next lines s with
  | .ok lexeme behind => (.ok lexeme, behind)
  | .error fault behind => (.error fault, behind)

def after (lines : List String) (s : Scanner) (calls : Nat) : Scanner :=
  (fun s => (s.call lines).2)^[calls] s

def answer (lines : List String) (s : Scanner) (calls : Nat) : Except Fault Lexeme :=
  ((s.after lines calls).call lines).1

/-- Where the calls come to a stop: behind the whole text, or in front of the first piece
that offends. -/
def StopsAt (lines : List String) (pieces : List PlacedPiece) (final : Except Fault Lexeme)
    (stop : Scanner) : Prop :=
  match pieces.find? fun placed => placed.piece.offends with
  | none => final = .ok ⟨.endMarker, "", stop.line, stop.column⟩ ∧ stop.rest = []
  | some bad => final = .error (bad.fault lines) ∧ stop.line = bad.line ∧
      stop.column = bad.column ∧ ∃ tail, stop.rest = bad.piece.text ++ tail

inductive Answers (lines : List String) :
    Scanner → List Lexeme → Except Fault Lexeme → Scanner → Prop
  | stop {s stop : Scanner} {final : Except Fault Lexeme} (here : s.call lines = (final, stop))
      (ends : ∀ lexeme, final = .ok lexeme → lexeme.isEnd = true)
      (again : stop.call lines = (final, stop)) : Answers lines s [] final stop
  | step {s behind stop : Scanner} {final : Except Fault Lexeme} {lexeme : Lexeme}
      {lexemes : List Lexeme} (here : s.call lines = (.ok lexeme, behind))
      (more : lexeme.isEnd = false) (later : Answers lines behind lexemes final stop) :
      Answers lines s (lexeme :: lexemes) final stop

section

variable {s s' s'' behind stop : Scanner} {text text' : List Char} {lines : List String}
  {lexeme : Lexeme} {lexemes : List Lexeme} {final : Except Fault Lexeme} {calls : Nat}

theorem Passes.refl (s : Scanner) : s.Passes [] s := ⟨rfl, rfl⟩

theorem Passes.trans (first : s.Passes text s') (second : s'.Passes text' s'') :
    s.Passes (text ++ text') s'' where
  rest := by rw [first.rest, second.rest, List.append_assoc]
  place := by rw [second.place, first.place, List.foldl_append]

theorem Passes.reaches (passes : s.Passes text s') : s'.Reaches s := by
  have forward : ∀ place : Nat × Nat, place.1 < (text.foldl placeBehind place).1 ∨
      place.1 = (text.foldl placeBehind place).1 ∧
        place.2 ≤ (text.foldl placeBehind place).2 := by
    clear passes
    induction text with
    | nil => exact fun place => .inr ⟨rfl, Nat.le_refl _⟩
    | cons c text induction =>
        intro place
        have later := induction (placeBehind place c)
        rw [List.foldl_cons]
        have one : place.1 < (placeBehind place c).1 ∨
            place.1 = (placeBehind place c).1 ∧ place.2 ≤ (placeBehind place c).2 := by
          unfold placeBehind
          split <;> simp
        omega
  have whole := forward (s.line, s.column)
  rwa [← passes.place] at whole

theorem fold_inside (inside : ∀ c ∈ text, c ≠ '\n') (line column : Nat) :
    text.foldl placeBehind (line, column) = (line, column + text.length) := by
  induction text generalizing column with
  | nil => rfl
  | cons c text induction =>
      obtain ⟨notBreak, others⟩ := List.forall_mem_cons.1 inside
      rw [List.foldl_cons, placeBehind, if_neg notBreak, induction others, List.length_cons,
        Nat.add_assoc, Nat.add_comm 1]

theorem skip_passes (s : Scanner) : s.Passes (s.rest.takeWhile isBlank) s.skipBlanks := by
  obtain ⟨rest, line, column⟩ := s
  induction rest generalizing line column with
  | nil => exact .refl _
  | cons c rest induction =>
      by_cases blank : isBlank c = true
      · have later : (⟨rest, (placeBehind (line, column) c).1,
            (placeBehind (line, column) c).2⟩ : Scanner).skipBlanks =
              (⟨c :: rest, line, column⟩ : Scanner).skipBlanks := by
          simp only [skipBlanks, skipFrom, placeBehind, blank, if_true]
          split <;> rfl
        have passes := induction (placeBehind (line, column) c).1 (placeBehind (line, column) c).2
        rw [later] at passes
        rw [List.takeWhile_cons_of_pos blank]
        exact ⟨congrArg (c :: ·) passes.rest, passes.place⟩
      · simp only [Bool.not_eq_true] at blank
        rw [skip_blanks_of_not_blank blank, List.takeWhile_cons_of_neg (by simp [blank])]
        exact .refl _

theorem take_passes (kind : LexemeKind) (starts : text <+: s.rest)
    (inked : ∀ c ∈ text, isBlank c = false) : s.Passes text (s.take kind text).2 where
  rest := by
    obtain ⟨tail, same⟩ := starts
    rw [take, ← same, List.drop_left]
  place := (fold_inside (fun c member => ne_break_of_not_blank (inked c member)) _ _).symm

theorem read_passes (reads : s.read = .ok (lexeme, behind)) :
    s.Passes lexeme.text.toList behind ∧ lexeme.line = s.line ∧ lexeme.column = s.column := by
  have taken : ∀ kind text, text <+: s.rest → (∀ c ∈ text, isBlank c = false) →
      s.take kind text = (lexeme, behind) →
        s.Passes lexeme.text.toList behind ∧ lexeme.line = s.line ∧ lexeme.column = s.column := by
    rintro kind text starts inked ⟨⟩
    rw [String.toList_ofList]
    exact ⟨take_passes kind starts inked, rfl, rfl⟩
  have run : s.run <+: s.rest ∧ ∀ c ∈ s.run, isBlank c = false :=
    ⟨List.takeWhile_prefix _, fun c member =>
      not_blank_of_identifier_char (List.all_eq_true.1 List.all_takeWhile c member)⟩
  unfold read at reads
  split at reads
  · rename_i empty
    cases reads
    exact ⟨.refl s, rfl, rfl⟩
  · rename_i c tail here
    split at reads
    · split at reads
      · exact taken _ _ run.1 run.2 (Except.ok.inj reads)
      · cases reads
    · split at reads
      · rename_i key
        refine taken _ [c] ⟨tail, by rw [here]; rfl⟩ ?_ (Except.ok.inj reads)
        exact List.forall_mem_singleton.2 (not_blank_of_key key)
      · split at reads
        · exact taken _ _ run.1 run.2 (Except.ok.inj reads)
        · cases reads

theorem skip_blanks_skip_blanks (s : Scanner) : s.skipBlanks.skipBlanks = s.skipBlanks := by
  have inked := s.inked_behind_blanks
  generalize s.skipBlanks = behind at inked ⊢
  obtain ⟨rest, line, column⟩ := behind
  cases rest with
  | nil => rfl
  | cons c rest => exact skip_blanks_of_not_blank (inked c rfl)

theorem call_eq (lines : List String) (s : Scanner) :
    s.call lines = match s.skipBlanks.read with
      | .ok (lexeme, behind) => (.ok lexeme, behind)
      | .error defect => (.error (s.skipBlanks.fault lines defect), s.skipBlanks) := by
  rw [call, next]
  cases s.skipBlanks.read <;> rfl

theorem call_skip_blanks (lines : List String) (s : Scanner) :
    s.skipBlanks.call lines = s.call lines := by
  rw [call_eq, call_eq, skip_blanks_skip_blanks]

theorem call_of_read (reads : s.skipBlanks.read = .ok (lexeme, behind)) :
    s.call lines = (.ok lexeme, behind) := by
  rw [call_eq, reads]

theorem call_of_defect {defect : Defect} (reads : s.skipBlanks.read = .error defect) :
    s.call lines = (.error (s.skipBlanks.fault lines defect), s.skipBlanks) := by
  rw [call_eq, reads]

theorem read_of_call (answers : s.call lines = (.ok lexeme, behind)) :
    s.skipBlanks.read = .ok (lexeme, behind) := by
  rw [call_eq] at answers
  cases reads : s.skipBlanks.read with
  | error defect =>
      rw [reads] at answers
      cases answers
  | ok result =>
      rw [reads] at answers
      cases answers
      rfl

theorem call_passes (lines : List String) (s : Scanner) :
    ∃ text, s.Passes text (s.call lines).2 := by
  cases reads : s.skipBlanks.read with
  | error defect => exact ⟨_, by rw [call_of_defect reads]; exact s.skip_passes⟩
  | ok result =>
      obtain ⟨lexeme, behind⟩ := result
      rw [call_of_read reads]
      exact ⟨_, s.skip_passes.trans (read_passes reads).1⟩

theorem after_add (lines : List String) (s : Scanner) (calls more : Nat) :
    s.after lines (calls + more) = (s.after lines calls).after lines more := by
  rw [after, Nat.add_comm, Function.iterate_add_apply]
  rfl

theorem after_succ (lines : List String) (s : Scanner) (calls : Nat) :
    s.after lines (calls + 1) = ((s.after lines calls).call lines).2 :=
  after_add lines s calls 1

theorem after_of_call {answer : Except Fault Lexeme} (here : s.call lines = (answer, behind))
    (calls : Nat) : s.after lines (calls + 1) = behind.after lines calls := by
  rw [after, Function.iterate_succ_apply, here]
  rfl

theorem after_passes (lines : List String) (s : Scanner) (calls : Nat) :
    ∃ text, s.Passes text (s.after lines calls) := by
  induction calls with
  | zero => exact ⟨[], .refl s⟩
  | succ calls induction =>
      obtain ⟨text, passes⟩ := induction
      obtain ⟨text', passes'⟩ := (s.after lines calls).call_passes lines
      exact ⟨text ++ text', after_succ lines s calls ▸ passes.trans passes'⟩

/-- One step: the first call answers the first lexeme, or comes to a stop. -/
theorem call_pieces (lines : List String) (s : Scanner) :
    (∃ final, s.call lines = (final, s.skipBlanks) ∧ soundLexemes s.pieces = [] ∧
      StopsAt lines s.pieces final s.skipBlanks) ∨
    ∃ lexeme behind, s.call lines = (.ok lexeme, behind) ∧ lexeme.isEnd = false ∧
      soundLexemes s.pieces = lexeme :: soundLexemes behind.pieces ∧
      ∀ final stop, StopsAt lines behind.pieces final stop → StopsAt lines s.pieces final stop := by
  obtain ⟨gap, rests, -, blanks⟩ := s.pieces_skip
  rw [rests, sound_lexemes_behind_blanks blanks]
  simp only [StopsAt, find_behind_blanks blanks]
  have found := finds s.inked_behind_blanks
  cases reads : s.skipBlanks.read with
  | error defect =>
      rw [reads] at found
      cases found with
      | defect starts offends here stands reports =>
          refine .inl ⟨_, call_of_defect reads, ?_, ?_⟩
          · rw [starts, sound_lexemes_offends offends]
          · rw [starts, List.find?_cons_of_pos (by exact offends)]
            exact ⟨congrArg _ (reports lines), here.1.symm, here.2.symm, _, stands⟩
  | ok result =>
      rw [reads] at found
      cases found with
      | ending empty =>
          rw [pieces_of_empty empty]
          exact .inl ⟨_, call_of_read reads, rfl, rfl, empty⟩
      | lexeme starts last sound isLexeme =>
          refine .inr ⟨_, _, call_of_read reads, not_end_of_piece isLexeme, ?_, ?_⟩
          · rw [starts, sound_lexemes_cons sound isLexeme]
          · intro final stop stops
            rwa [starts, List.find?_cons_of_neg (by simp [sound])]

theorem StopsAt.is_end {pieces : List PlacedPiece} (stops : StopsAt lines pieces final stop) :
    ∀ lexeme, final = .ok lexeme → lexeme.isEnd = true := by
  rintro lexeme rfl
  unfold StopsAt at stops
  split at stops
  · cases stops.1
    rfl
  · cases stops.1

/-- All calls: the sound lexemes are answered, and then the stop. -/
theorem answers (lines : List String) (s : Scanner) :
    ∃ final stop, Answers lines s (soundLexemes s.pieces) final stop ∧
      StopsAt lines s.pieces final stop := by
  rcases s.call_pieces lines with ⟨final, here, none, stops⟩ |
    ⟨lexeme, behind, here, more, sound, same⟩
  · have again : s.skipBlanks.call lines = (final, s.skipBlanks) := by
      rw [call_skip_blanks, here]
    exact ⟨final, s.skipBlanks, none ▸ .stop here stops.is_end again, stops⟩
  · have _shorter : behind.rest.length < s.rest.length :=
      Nat.lt_of_lt_of_le (read_length (read_of_call here) more) s.skip_blanks_length
    obtain ⟨final, stop, later, stops⟩ := answers lines behind
    exact ⟨final, stop, sound ▸ .step here more later, same final stop stops⟩
termination_by s.rest.length

namespace Answers

variable (answers : Answers lines s lexemes final stop)

include answers

theorem get {lexeme : Lexeme} (found : lexemes[calls]? = some lexeme) :
    s.answer lines calls = .ok lexeme ∧ lexeme.isEnd = false := by
  induction answers generalizing calls with
  | stop => cases found
  | @step s behind stop final first lexemes here more later induction =>
      cases calls with
      | zero =>
          cases found
          exact ⟨congrArg Prod.fst here, more⟩
      | succ calls =>
          rw [answer, after_of_call here]
          exact induction found

theorem call_beyond (beyond : lexemes.length ≤ calls) :
    (s.after lines calls).call lines = (final, stop) := by
  induction answers generalizing calls with
  | stop here _ again =>
      clear beyond
      induction calls with
      | zero => exact here
      | succ calls induction => rw [after_succ, induction, again]
  | step here more later induction =>
      obtain ⟨calls, rfl⟩ := Nat.exists_eq_add_of_le' beyond
      rw [List.length_cons, ← Nat.add_assoc, after_of_call here]
      exact induction (Nat.le_add_left _ _)

theorem lexemes_eq : s.lexemes lines = final.map fun last => lexemes ++ [last] := by
  induction answers with
  | @stop s stop final here ends again =>
      cases final with
      | ok last => exact lexemes_of_end (read_of_call here) (ends last rfl)
      | error fault =>
          rw [call_eq] at here
          cases reads : s.skipBlanks.read with
          | error defect =>
              rw [reads] at here
              cases here
              exact lexemes_of_defect reads
          | ok result =>
              rw [reads] at here
              cases here
  | @step _ _ _ final _ _ here more later induction =>
      rw [lexemes_of_read (read_of_call here) more, induction]
      cases final <;> rfl

end Answers

end

end Scanner

open Scanner in
/-- Calls for one lexeme after the other, on a scanner that starts in front of the text. -/
structure Stepping (text : String) (pieces : List PlacedPiece) (final : Except Fault Lexeme)
    (stop : Scanner) : Prop where
  /-- What a scanner has left is the text behind its place. -/
  passes : ∀ calls, ∃ read,
    (ofText text).Passes read ((ofText text).after (linesOf text) calls)
  forward : ∀ calls more, ((ofText text).after (linesOf text) (calls + more)).Reaches
    ((ofText text).after (linesOf text) calls)
  /-- A lexeme stands behind the blanks, and the scanner behind the lexeme. -/
  steps : ∀ calls lexeme, (ofText text).answer (linesOf text) calls = .ok lexeme →
    lexeme.isEnd = false → ∃ here,
      ((ofText text).after (linesOf text) calls).Passes
        (((ofText text).after (linesOf text) calls).rest.takeWhile isBlank) here ∧
      lexeme.line = here.line ∧ lexeme.column = here.column ∧
      here.Passes lexeme.text.toList ((ofText text).after (linesOf text) (calls + 1))
  sound : ∀ calls lexeme, (soundLexemes pieces)[calls]? = some lexeme →
    (ofText text).answer (linesOf text) calls = .ok lexeme ∧ lexeme.isEnd = false
  sticks : ∀ calls, (soundLexemes pieces).length ≤ calls →
    (ofText text).answer (linesOf text) calls = final ∧
      (ofText text).after (linesOf text) (calls + 1) = stop
  stops : StopsAt (linesOf text) pieces final stop
  whole : lexemesOf text = final.map fun last => soundLexemes pieces ++ [last]

/-- Calls on one scanner lose nothing of the text. They answer the lexemes in front of the first
piece that offends, and then for good the end marker or that piece's fault, where they stay. -/
theorem stepping_of_text (text : String) :
    ∃ cuts, (∀ other, Cuts text other ↔ other = cuts) ∧
      ∃ final stop, Stepping text (placeLines 0 cuts) final stop := by
  obtain ⟨final, stop, answers, stops⟩ :=
    (Scanner.ofText text).answers (Scanner.linesOf text)
  have all : (Scanner.ofText text).pieces = placeLines 0 (cutLines text) := by
    obtain ⟨first, others, split⟩ := Scanner.split_lines_cons text.toList
    simp only [Scanner.pieces, Scanner.ofText, cutLines, split]
    rfl
  rw [all] at answers stops
  refine ⟨cutLines text, fun other => cuts_iff, final, stop, ?_⟩
  exact {
    passes := fun calls => Scanner.after_passes _ _ calls
    forward := fun calls more => by
      rw [Scanner.after_add]
      obtain ⟨between, passes⟩ := Scanner.after_passes (Scanner.linesOf text)
        ((Scanner.ofText text).after (Scanner.linesOf text) calls) more
      exact passes.reaches
    steps := fun calls lexeme answered more => by
      obtain ⟨behind, here⟩ : ∃ behind,
          ((Scanner.ofText text).after (Scanner.linesOf text) calls).call
            (Scanner.linesOf text) = (.ok lexeme, behind) := ⟨_, Prod.ext answered rfl⟩
      obtain ⟨passes, line, column⟩ := Scanner.read_passes (Scanner.read_of_call here)
      rw [Scanner.after_succ, here]
      exact ⟨_, Scanner.skip_passes _, line, column, passes⟩
    sound := fun calls lexeme found => answers.get found
    sticks := fun calls beyond => by
      rw [Scanner.answer, Scanner.after_succ, answers.call_beyond beyond]
      exact ⟨rfl, rfl⟩
    stops := stops
    whole := answers.lexemes_eq }

end Fluxion
