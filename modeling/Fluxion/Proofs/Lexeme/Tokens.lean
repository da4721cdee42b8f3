import Fluxion.Proofs.Lexeme.Splitting

/-!
The lexemes of a text, one by one. Each stands in its line where it says it does, they
follow each other in the order of the text, and whatever no lexeme covers is blank.
Main statement: a text has lexemes exactly if none of its pieces offends, and then they
are its keys and its runs; otherwise the first piece that offends is reported.
-/

namespace Fluxion

open Text

def Cuts (text : String) (cuts : List (List Piece)) : Prop :=
  List.Forall₂ (fun line pieces => Cut line.toList pieces) (Scanner.linesOf text) cuts

def CharAt (text : String) (line column : Nat) (c : Char) : Prop :=
  ∃ chars, (Scanner.linesOf text)[line]? = some chars ∧ chars.toList[column]? = some c

/-- The text at a place, as a slice of the line. -/
def StandsAt (text : String) (line column : Nat) (part : List Char) : Prop :=
  ∃ chars, (Scanner.linesOf text)[line]? = some chars ∧
    column + part.length ≤ chars.length ∧ (chars.toList.drop column).take part.length = part

/-- The lexemes are what the cut text consists of, in its order and at its places. -/
structure Split (text : String) (cuts : List (List Piece)) (lexemes : List Lexeme) : Prop where
  pieces : ∃ last, (Scanner.linesOf text).getLast? = some last ∧
    lexemes = (placeLines 0 cuts).filterMap PlacedPiece.lexeme? ++
      [⟨.endMarker, "", (Scanner.linesOf text).length - 1, last.length⟩]
  stands : ∀ lexeme ∈ lexemes, StandsAt text lexeme.line lexeme.column lexeme.text.toList
  ordered : lexemes.Pairwise fun lexeme next => lexeme.line < next.line ∨
    lexeme.line = next.line ∧ lexeme.column + lexeme.text.length ≤ next.column
  gaps : ∀ line column c, CharAt text line column c → isBlank c = true ∨
    ∃ lexeme ∈ lexemes, lexeme.line = line ∧ lexeme.column ≤ column ∧
      column < lexeme.column + lexeme.text.length

theorem cuts_iff {text : String} {cuts : List (List Piece)} :
    Cuts text cuts ↔ cuts = (Scanner.linesOf.splitLines text.toList).map cut := by
  unfold Cuts Scanner.linesOf
  rw [List.forall₂_map_left_iff]
  simp only [String.toList_ofList, cut_iff]
  rw [← List.forall₂_eq_eq_eq (α := List Piece), List.forall₂_map_right_iff]
  constructor
  · exact fun same => same.flip.imp fun _ _ same => same
  · exact fun same => same.flip.imp fun _ _ same => same

theorem ending_eq {lines : List (List Char)} {last : List Char}
    (ends : lines.getLast? = some last) (line : Nat) :
    ending line 0 lines = ⟨.endMarker, "", line + lines.length - 1, last.length⟩ := by
  induction lines generalizing line with
  | nil => cases ends
  | cons first others induction =>
      cases others with
      | nil =>
          cases ends
          simp [ending]
      | cons next rest =>
          rw [ending, induction (by simpa using ends)]
          simp
          omega

section

variable {line column : Nat} {pieces : List Piece} {cuts : List (List Piece)} {placed : PlacedPiece}

theorem place_mem (member : placed ∈ place line column pieces) :
    placed.line = line ∧ placed.piece ∈ pieces ∧ column ≤ placed.column ∧
      placed.column + placed.piece.text.length ≤ column + (pieces.flatMap Piece.text).length ∧
      ((pieces.flatMap Piece.text).drop (placed.column - column)).take placed.piece.text.length =
        placed.piece.text := by
  induction pieces generalizing column with
  | nil => cases member
  | cons piece rest induction =>
      rcases List.mem_cons.1 member with rfl | member
      · simp
      · obtain ⟨sameLine, inside, behind, within, stands⟩ := induction member
        have longer : (((piece :: rest).flatMap Piece.text).length) =
            piece.text.length + (rest.flatMap Piece.text).length := by
          rw [List.flatMap_cons, List.length_append]
        refine ⟨sameLine, List.mem_cons_of_mem _ inside, by omega, by omega, ?_⟩
        have amount : placed.column - column =
            piece.text.length + (placed.column - (column + piece.text.length)) := by omega
        rw [List.flatMap_cons, amount, List.drop_length_add_append]
        exact stands

theorem place_lines_mem :
    placed ∈ placeLines line cuts ↔
      ∃ index pieces, cuts[index]? = some pieces ∧ placed ∈ place (line + index) 0 pieces := by
  induction cuts generalizing line with
  | nil => simp [placeLines]
  | cons first rest induction =>
      rw [placeLines, List.mem_append, induction]
      constructor
      · rintro (here | ⟨index, pieces, found, inside⟩)
        · exact ⟨0, first, rfl, here⟩
        · refine ⟨index + 1, pieces, found, ?_⟩
          rwa [Nat.add_comm index, ← Nat.add_assoc]
      · rintro ⟨index, pieces, found, inside⟩
        cases index with
        | zero =>
            cases found
            exact .inl inside
        | succ index =>
            refine .inr ⟨index, pieces, found, ?_⟩
            rwa [Nat.add_comm index, ← Nat.add_assoc] at inside

theorem place_covers {index : Nat} {c : Char} (line column : Nat)
    (found : (pieces.flatMap Piece.text)[index]? = some c) :
    ∃ placed ∈ place line column pieces, placed.column ≤ column + index ∧
      column + index < placed.column + placed.piece.text.length ∧ c ∈ placed.piece.text := by
  induction pieces generalizing column index with
  | nil => simp at found
  | cons piece rest induction =>
      rw [List.flatMap_cons, List.getElem?_append] at found
      split at found
      · rename_i inside
        exact ⟨⟨piece, line, column⟩, by simp [place], Nat.le_add_right _ _, by simpa using inside,
          List.mem_of_getElem? found⟩
      · obtain ⟨placed, member, behind, before, inside⟩ :=
          induction (column + piece.text.length) found
        exact ⟨placed, List.mem_cons_of_mem _ member, by omega, by omega, inside⟩

theorem mem_place {piece : Piece} (member : piece ∈ pieces) (line column : Nat) :
    ∃ placed ∈ place line column pieces, placed.piece = piece := by
  induction pieces generalizing column with
  | nil => cases member
  | cons first rest induction =>
      rcases List.mem_cons.1 member with rfl | member
      · exact ⟨⟨piece, line, column⟩, by simp [place], rfl⟩
      · obtain ⟨placed, inside, same⟩ := induction member (column + first.text.length)
        exact ⟨placed, List.mem_cons_of_mem _ inside, same⟩

def PlacedPiece.Before (placed next : PlacedPiece) : Prop :=
  placed.line < next.line ∨
    placed.line = next.line ∧ placed.column + placed.piece.text.length ≤ next.column

theorem place_ordered : (place line column pieces).Pairwise PlacedPiece.Before := by
  induction pieces generalizing column with
  | nil => exact .nil
  | cons piece rest induction =>
      refine List.pairwise_cons.2 ⟨fun next member => ?_, induction⟩
      obtain ⟨sameLine, -, behind, -, -⟩ := place_mem member
      exact .inr ⟨sameLine.symm, behind⟩

theorem place_lines_ordered : (placeLines line cuts).Pairwise PlacedPiece.Before := by
  induction cuts generalizing line with
  | nil => exact .nil
  | cons first rest induction =>
      refine List.pairwise_append.2 ⟨place_ordered, induction, fun placed member next later => ?_⟩
      obtain ⟨index, pieces, -, inside⟩ := place_lines_mem.1 later
      have above := (place_mem member).1
      have below := (place_mem inside).1
      exact .inl (by omega)

end

section

variable {text : String} {placed : PlacedPiece}

def cutLines (text : String) : List (List Piece) :=
  (Scanner.linesOf.splitLines text.toList).map cut

theorem cut_lines_get {index : Nat} {pieces : List Piece} :
    (cutLines text)[index]? = some pieces ↔
      ∃ chars, (Scanner.linesOf text)[index]? = some chars ∧ pieces = cut chars.toList := by
  rw [cutLines, Scanner.linesOf, List.getElem?_map, List.getElem?_map]
  cases (Scanner.linesOf.splitLines text.toList)[index]? <;> simp [eq_comm]

theorem proper_of_placed (member : placed ∈ placeLines 0 (cutLines text)) :
    placed.piece.Proper := by
  obtain ⟨index, pieces, found, inside⟩ := place_lines_mem.1 member
  obtain ⟨chars, -, rfl⟩ := cut_lines_get.1 found
  exact (cut_cuts chars.toList).proper placed.piece (place_mem inside).2.1

theorem stands_of_placed (member : placed ∈ placeLines 0 (cutLines text)) :
    StandsAt text placed.line placed.column placed.piece.text := by
  obtain ⟨index, pieces, found, inside⟩ := place_lines_mem.1 member
  obtain ⟨chars, isLine, rfl⟩ := cut_lines_get.1 found
  obtain ⟨sameLine, -, -, within, stands⟩ := place_mem inside
  rw [(cut_cuts chars.toList).covers] at within stands
  rw [Nat.zero_add] at sameLine within
  rw [String.length_toList] at within
  exact ⟨chars, sameLine ▸ isLine, within, stands⟩

theorem placed_of_char {line column : Nat} {c : Char} (char : CharAt text line column c) :
    ∃ placed ∈ placeLines 0 (cutLines text), placed.line = line ∧ placed.column ≤ column ∧
      column < placed.column + placed.piece.text.length ∧ c ∈ placed.piece.text := by
  obtain ⟨chars, isLine, found⟩ := char
  rw [← (cut_cuts chars.toList).covers] at found
  obtain ⟨placed, member, behind, before, inside⟩ :=
    place_covers line 0 found
  have isCut : (cutLines text)[line]? = some (cut chars.toList) :=
    cut_lines_get.2 ⟨chars, isLine, rfl⟩
  refine ⟨placed, place_lines_mem.2 ⟨line, _, isCut, by rwa [Nat.zero_add]⟩, ?_⟩
  rw [Nat.zero_add] at behind before
  exact ⟨(place_mem member).1, behind, before, inside⟩

theorem placed_of_piece {pieces : List Piece} {piece : Piece} (isCut : pieces ∈ cutLines text)
    (member : piece ∈ pieces) : ∃ placed ∈ placeLines 0 (cutLines text), placed.piece = piece := by
  obtain ⟨index, found⟩ := List.mem_iff_getElem?.1 isCut
  obtain ⟨placed, inside, same⟩ := mem_place member (0 + index) 0
  exact ⟨placed, place_lines_mem.2 ⟨index, pieces, found, inside⟩, same⟩

theorem mem_split_lines {chars : List Char} {c : Char} :
    (∃ line ∈ Scanner.linesOf.splitLines chars, c ∈ line) ↔ c ∈ chars ∧ c ≠ '\n' := by
  induction chars with
  | nil => simp [Scanner.linesOf.splitLines]
  | cons d rest induction =>
      obtain ⟨first, others, split⟩ := Scanner.split_lines_cons rest
      rw [split] at induction
      by_cases newline : d = '\n'
      · subst newline
        rw [Scanner.split_lines_break split]
        simp only [List.mem_cons, exists_eq_or_imp, List.not_mem_nil, false_or] at induction ⊢
        rw [induction]
        constructor
        · exact fun inside => ⟨.inr inside.1, inside.2⟩
        · exact fun inside => ⟨inside.1.resolve_left inside.2, inside.2⟩
      · have single := Scanner.split_lines_append (List.forall_mem_singleton.2 newline) split
        rw [List.singleton_append] at single
        rw [single]
        simp only [List.mem_cons, exists_eq_or_imp, List.singleton_append, or_assoc] at induction ⊢
        rw [induction]
        constructor
        · rintro (rfl | inside)
          · exact ⟨.inl rfl, newline⟩
          · exact ⟨.inr inside.1, inside.2⟩
        · rintro ⟨rfl | inside, notBreak⟩
          · exact .inl rfl
          · exact .inr ⟨inside, notBreak⟩

theorem char_iff {c : Char} :
    (∃ line column, CharAt text line column c) ↔ c ∈ text.toList ∧ c ≠ '\n' := by
  rw [← mem_split_lines]
  constructor
  · rintro ⟨line, column, chars, isLine, found⟩
    rw [Scanner.linesOf, List.getElem?_map] at isLine
    obtain ⟨raw, isRaw, rfl⟩ := Option.map_eq_some_iff.1 isLine
    rw [String.toList_ofList] at found
    exact ⟨raw, List.mem_of_getElem? isRaw, List.mem_of_getElem? found⟩
  · rintro ⟨chars, isLine, inside⟩
    obtain ⟨line, isLine⟩ := List.mem_iff_getElem?.1 isLine
    obtain ⟨column, found⟩ := List.mem_iff_getElem?.1 inside
    refine ⟨line, column, String.ofList chars, ?_, by rwa [String.toList_ofList]⟩
    rw [Scanner.linesOf, List.getElem?_map, isLine]
    rfl

theorem lexemes_eq : lexemesOf text = outcome (Scanner.linesOf text) (placeLines 0 (cutLines text))
    (ending 0 0 (Scanner.linesOf.splitLines text.toList)) := by
  rw [lexemesOf, Scanner.lexemes_eq_outcome]
  obtain ⟨first, others, split⟩ := Scanner.split_lines_cons text.toList
  simp only [Scanner.pieces, Scanner.finish, Scanner.ofText, cutLines, split]
  rfl

/-- Nothing offends in a text of characters that may stand in one, if the runs that
start with a digit are numbers. -/
theorem none_offends_iff :
    (placeLines 0 (cutLines text)).find? (fun placed => placed.piece.offends) = none ↔
      (∀ c ∈ text.toList, c ≠ '\n' →
        isBlank c = true ∨ isKey c = true ∨ isIdentifierChar c = true) ∧
      ∀ pieces ∈ cutLines text, ∀ run, Piece.run run ∈ pieces →
        run.head?.any isAsciiDigit = true → run.all isAsciiDigit = true := by
  rw [List.find?_eq_none]
  constructor
  · intro sound
    constructor
    · intro c member inside
      obtain ⟨line, column, char⟩ := char_iff.2 ⟨member, inside⟩
      obtain ⟨placed, isPlaced, -, -, -, within⟩ := placed_of_char char
      have proper := proper_of_placed isPlaced
      have fine := sound placed isPlaced
      cases piece : placed.piece with
      | blank d => simp_all [Piece.text, Piece.Proper]
      | key d => simp_all [Piece.text, Piece.Proper]
      | run run => simp_all [Piece.text, Piece.Proper]
      | stray d => simp_all [Piece.offends]
    · intro pieces isCut run member digit
      obtain ⟨placed, isPlaced, same⟩ := placed_of_piece isCut member
      have fine := sound placed isPlaced
      simp only [same, Piece.offends, digit, Bool.true_and] at fine
      simpa using fine
  · rintro ⟨legal, plain⟩ placed isPlaced offends
    have proper := proper_of_placed isPlaced
    obtain ⟨index, pieces, found, inside⟩ := place_lines_mem.1 isPlaced
    have isPiece := (place_mem inside).2.1
    cases piece : placed.piece with
    | blank d | key d => simp [piece, Piece.offends] at offends
    | run run =>
        rw [piece] at isPiece
        simp only [piece, Piece.offends, Bool.and_eq_true] at offends
        have digits := plain pieces (List.mem_of_getElem? found) run isPiece offends.1
        simp [digits] at offends
    | stray d =>
        rw [piece] at proper isPiece
        obtain ⟨chars, isLine, rfl⟩ := cut_lines_get.1 found
        have char : ∃ line column, CharAt text line column d := by
          have member : d ∈ chars.toList := by
            rw [← (cut_cuts chars.toList).covers]
            exact List.mem_flatMap.2 ⟨.stray d, isPiece, by simp [Piece.text]⟩
          obtain ⟨column, found⟩ := List.mem_iff_getElem?.1 member
          exact ⟨index, column, chars, isLine, found⟩
        obtain ⟨member, notBreak⟩ := char_iff.1 char
        obtain ⟨inked, notKey, outside⟩ := proper
        simpa [inked, notKey, outside] using legal d member notBreak

theorem lexeme_some {lexeme : Lexeme} (isLexeme : placed.lexeme? = some lexeme) :
    lexeme.line = placed.line ∧ lexeme.column = placed.column ∧
      lexeme.text.toList = placed.piece.text ∧
      lexeme.text.length = placed.piece.text.length := by
  obtain ⟨kind, -, rfl⟩ := Option.map_eq_some_iff.1 isLexeme
  exact ⟨rfl, rfl, String.toList_ofList, by rw [String.length_ofList]⟩

theorem lexeme_or_blank (sound : placed.piece.offends = false) :
    (∃ lexeme, placed.lexeme? = some lexeme) ∨ ∃ c, placed.piece = .blank c := by
  cases piece : placed.piece with
  | blank c => exact .inr ⟨c, rfl⟩
  | key c | run text => exact .inl ⟨_, by rw [PlacedPiece.lexeme?, piece]; rfl⟩
  | stray c => simp [piece, Piece.offends] at sound

theorem split_of_none
    (sound : ∀ placed ∈ placeLines 0 (cutLines text), placed.piece.offends = false) :
    ∃ last, (Scanner.linesOf text).getLast? = some last ∧
      Split text (cutLines text) ((placeLines 0 (cutLines text)).filterMap PlacedPiece.lexeme? ++
        [⟨.endMarker, "", (Scanner.linesOf text).length - 1, last.length⟩]) := by
  obtain ⟨first, others, split⟩ := Scanner.split_lines_cons text.toList
  have nonempty : Scanner.linesOf text ≠ [] := by simp [Scanner.linesOf, split]
  obtain ⟨last, isLast⟩ : ∃ last, (Scanner.linesOf text).getLast? = some last :=
    ⟨_, List.getLast?_eq_getLast_of_ne_nil nonempty⟩
  have lastLine : (Scanner.linesOf text)[(Scanner.linesOf text).length - 1]? = some last := by
    rw [← List.getLast?_eq_getElem?, isLast]
  refine ⟨last, isLast, ⟨last, isLast, rfl⟩, ?_, ?_, ?_⟩
  · intro lexeme member
    rcases List.mem_append.1 member with inside | final
    · obtain ⟨placed, isPlaced, isLexeme⟩ := List.mem_filterMap.1 inside
      obtain ⟨line, column, same, -⟩ := lexeme_some isLexeme
      rw [line, column, same]
      exact stands_of_placed isPlaced
    · rw [List.mem_singleton.1 final]
      exact ⟨last, lastLine, by simp, by simp⟩
  · refine List.pairwise_append.2 ⟨?_, List.pairwise_singleton _ _, ?_⟩
    · refine List.pairwise_filterMap.2 (place_lines_ordered.imp ?_)
      intro placed next before lexeme isLexeme lexeme' isLexeme'
      obtain ⟨line, column, -, width⟩ := lexeme_some isLexeme
      obtain ⟨line', column', -⟩ := lexeme_some isLexeme'
      rw [line, column, line', column', width]
      exact before
    · intro lexeme member next final
      rw [List.mem_singleton.1 final]
      obtain ⟨placed, isPlaced, isLexeme⟩ := List.mem_filterMap.1 member
      obtain ⟨line, column, -, width⟩ := lexeme_some isLexeme
      obtain ⟨chars, isLine, within, -⟩ := stands_of_placed isPlaced
      rw [line, column, width]
      have inText : placed.line < (Scanner.linesOf text).length :=
        (List.getElem?_eq_some_iff.1 isLine).1
      rcases Nat.lt_or_ge placed.line ((Scanner.linesOf text).length - 1) with above | below
      · exact .inl above
      · have sameLine : placed.line = (Scanner.linesOf text).length - 1 := by omega
        rw [sameLine, lastLine] at isLine
        cases isLine
        exact .inr ⟨sameLine, within⟩
  · intro line column c char
    obtain ⟨placed, isPlaced, sameLine, behind, before, inside⟩ := placed_of_char char
    rcases lexeme_or_blank (sound placed isPlaced) with ⟨lexeme, isLexeme⟩ | ⟨d, piece⟩
    · obtain ⟨line', column', -, width⟩ := lexeme_some isLexeme
      have member := List.mem_filterMap.2 ⟨placed, isPlaced, isLexeme⟩
      refine .inr ⟨lexeme, List.mem_append_left _ member, line'.trans sameLine, column' ▸ behind, ?_⟩
      rw [column', width]
      exact before
    · have proper := proper_of_placed isPlaced
      rw [piece] at inside proper
      rw [List.mem_singleton.1 inside]
      exact .inl proper

/-- A text has lexemes exactly if all its characters may stand in a text and every run
that starts with a digit is a number. They are the keys and the runs of its lines;
otherwise the first run or character that offends is reported. -/
theorem lexemes_of_text (text : String) :
    ∃ cuts, (∀ other, Cuts text other ↔ other = cuts) ∧
      ((∃ lexemes, lexemesOf text = .ok lexemes) ↔
        (∀ c ∈ text.toList, c ≠ '\n' →
          isBlank c = true ∨ isKey c = true ∨ isIdentifierChar c = true) ∧
        ∀ pieces ∈ cuts, ∀ run, Piece.run run ∈ pieces →
          run.head?.any isAsciiDigit = true → run.all isAsciiDigit = true) ∧
      (∀ lexemes, lexemesOf text = .ok lexemes → Split text cuts lexemes) ∧
      ∀ fault, lexemesOf text = .error fault →
        ∃ bad, (placeLines 0 cuts).find? (fun placed => placed.piece.offends) = some bad ∧
          StandsAt text bad.line bad.column bad.piece.text ∧
          fault = bad.fault (Scanner.linesOf text) := by
  refine ⟨cutLines text, fun other => cuts_iff, ?_⟩
  rw [← none_offends_iff, lexemes_eq, outcome]
  cases found : (placeLines 0 (cutLines text)).find? fun placed => placed.piece.offends with
  | none =>
      have sound := List.find?_eq_none.1 found
      obtain ⟨last, isLast, split⟩ := split_of_none fun placed member => by
        simpa using sound placed member
      refine ⟨by simp, ?_, nofun⟩
      rintro lexemes ⟨⟩
      rw [Scanner.linesOf, List.getLast?_map] at isLast
      obtain ⟨raw, isRaw, rfl⟩ := Option.map_eq_some_iff.1 isLast
      rw [Scanner.linesOf, List.length_map, String.length_ofList] at split
      rwa [ending_eq isRaw, Nat.zero_add]
  | some bad =>
      refine ⟨by simp, nofun, ?_⟩
      rintro fault ⟨⟩
      exact ⟨bad, rfl, stands_of_placed (List.mem_of_find?_eq_some found), rfl⟩

end

end Fluxion
