import Fluxion.Proofs.Derivative.Relation
import Fluxion.Proofs.Grammar.Acceptance
import Fluxion.Proofs.Lexeme.Tokens
import Fluxion.Proofs.Notation.Spelled

/-!
How a parse can end. A parser that reads lexemes which all have a tree gives a built tree
without derivative markers, or it complains about a place of the text; no construction on
the way is refused. Main statement: a text has such a tree, or the scanner or the parser
complains about a place in it.
-/

namespace Fluxion

namespace Expr

variable {α : Type}

/-- A built tree without derivative markers. -/
def Plain (tree : Expr α) : Prop := tree.Built ∧ tree.Marks fun _ => False

theorem Marks.mono {allowed more : String → Prop} {tree : Expr α} (marks : tree.Marks allowed)
    (weaker : ∀ name, allowed name → more name) : tree.Marks more := by
  induction tree with
  | missing | num _ | var _ => trivial
  | binary op lhs rhs left right => exact ⟨left marks.1, right marks.2⟩
  | signed op operand inner | call name operand inner => exact inner marks
  | marked op operand inner =>
      obtain ⟨⟨name, arg, under, isAllowed⟩, marksInner⟩ := marks
      exact ⟨⟨name, arg, under, weaker name isAllowed⟩, inner marksInner⟩

end Expr

namespace Grammar

open Outcome

variable {α : Type} [Scalar α] {β γ : Type}

def AllReadable (α : Type) [Scalar α] (cursor : Cursor) : Prop :=
  ∀ lexeme ∈ cursor.ahead, Readable α lexeme

theorem AllReadable.advance {cursor : Cursor} (readable : AllReadable α cursor) :
    AllReadable α cursor.advance :=
  fun lexeme inside => readable lexeme (List.mem_of_mem_tail inside)

/-- From here the parser gives something with the property, in front of readable lexemes,
or it complains about a place. -/
def AnswersFrom (α : Type) [Scalar α] (before : Cursor) (parser : Parse β) (result : β → Prop) :
    Prop :=
  (∃ value after, parser before = .ok value after ∧ result value ∧ AllReadable α after) ∨
    ∃ site complaint after, parser before = .error (.located .grammatical site complaint) after

def Answers (α : Type) [Scalar α] (parser : Parse β) (result : β → Prop) : Prop :=
  ∀ before, AllReadable α before → AnswersFrom α before parser result

section

variable {before : Cursor} {result : β → Prop} {next : γ → Prop} {passage : Passage}

theorem answers_value {value : β} (holds : result value) (readable : AllReadable α before) :
    AnswersFrom α before (pure value) result :=
  .inl ⟨value, before, rfl, holds, readable⟩

theorem answers_complaint (lexeme : Lexeme) (complaint : Complaint) :
    AnswersFrom α before (throw (passage.fault lexeme complaint)) result :=
  .inr ⟨_, _, before, rfl⟩

theorem AnswersFrom.bind {parser : Parse β} {rest : β → Parse γ}
    (answers : AnswersFrom α before parser result)
    (continues : ∀ value, result value → Answers α (rest value) next) :
    AnswersFrom α before (parser >>= rest) next := by
  rcases answers with ⟨value, between, done, holds, readable⟩ | ⟨site, complaint, after, failed⟩
  · have steps : (parser >>= rest) before = rest value between := bind_ok_of_ok done
    unfold AnswersFrom
    rw [steps]
    exact continues value holds between readable
  · right
    refine ⟨site, complaint, after, ?_⟩
    show EStateM.bind parser rest before = _
    unfold EStateM.bind
    rw [failed]

theorem built_answers {made : Except Fault (Expr α)} {tree : Expr α} {result : Expr α → Prop}
    (isMade : made = .ok tree) (holds : result tree) : Answers α (built made) result := by
  intro before readable
  exact .inl ⟨tree, before, built_ok.2 ⟨isMade, rfl⟩, holds, readable⟩

variable {level : Level} {operand : Parse (Expr α)}

theorem chain_from_answers (answers : Answers α operand Expr.Plain) {left : Nat} {root : Expr α}
    (plain : root.Plain) : Answers α (chainFrom level operand left root) Expr.Plain := by
  induction left generalizing root with
  | zero => exact fun before readable => answers_value plain readable
  | succ left induction =>
      intro before readable
      unfold AnswersFrom
      rw [chain_from_succ]
      cases found : before.ahead.head?.bind (·.chainOp? level) with
      | none => exact answers_value plain readable
      | some op =>
          have inner := answers before.advance readable.advance
          refine inner.bind fun rhs plainRight => induction ?_
          obtain ⟨lexeme, -, isOp⟩ := Option.bind_eq_some_iff.1 found
          have known := BinaryOp.known_of_level (chain_op_some.1 isOp).2.2
          exact ⟨(Expr.built_binary _ _ _).2 ⟨known, plain.1, plainRight.1⟩,
            plain.2, plainRight.2⟩

theorem chain_answers (answers : Answers α operand Expr.Plain) :
    Answers α (chain level operand) Expr.Plain := by
  intro before readable
  refine (answers before readable).bind fun first plain between readable => ?_
  exact chain_from_answers answers plain between readable

theorem expect_closing_answers : Answers α (expectClosing passage) fun _ => True := by
  intro before readable
  unfold AnswersFrom
  rw [expectClosing, get_bind]
  cases before.ahead with
  | nil => exact answers_complaint (α := α) _ _
  | cons lexeme behind =>
      simp only [modify_bind]
      by_cases closes : lexeme.kind = .closing
      · rw [if_pos closes]
        exact .inl ⟨(), _, rfl, trivial, readable.advance⟩
      · rw [if_neg closes]
        exact answers_complaint (α := α) _ _

variable {inner : Option (Parse (Expr α))}

theorem group_answers (passage : Passage) (answers : ∀ parser ∈ inner, Answers α parser Expr.Plain)
    (paren : Lexeme) :
    Answers α (group passage inner paren) Expr.Plain := by
  intro before readable
  unfold AnswersFrom
  cases inner with
  | none => exact answers_complaint (α := α) _ _
  | some parser =>
      rw [group, modify_bind]
      have opened : AllReadable α before.opened := readable
      refine (answers parser rfl before.opened opened).bind fun root plain => ?_
      intro between readable
      refine (expect_closing_answers between readable).bind fun _ _ after readable => ?_
      exact answers_value plain readable

theorem variable_answers {name : String} (named : name ≠ "") :
    Answers α (built (Expr.makeVariable name : Except Fault (Expr α))) Expr.Plain :=
  built_answers (Expr.make_variable_ok.2 ⟨named, rfl⟩) ⟨(Expr.built_var name).2 named, trivial⟩

theorem factor_answers (passage : Passage)
    (answers : ∀ parser ∈ inner, Answers α parser Expr.Plain) :
    Answers α (factor passage inner) Expr.Plain := by
  intro before readable
  unfold AnswersFrom
  rw [factor, get_bind]
  cases ahead : before.ahead with
  | nil => exact answers_complaint (α := α) _ _
  | cons lexeme behind =>
      have isReadable : Readable α lexeme := readable lexeme (by simp [ahead])
      cases kind : lexeme.kind with
      | opening =>
          simp only [kind, modify_bind]
          exact group_answers passage answers lexeme before.advance readable.advance
      | identifier =>
          have named := isReadable.2 kind
          simp only [kind, modify_bind]
          cases behind with
          | nil => exact variable_answers named before.advance readable.advance
          | cons paren behind =>
              simp only [List.head?_cons]
              by_cases opens : paren.kind = .opening
              · rw [if_pos opens, modify_bind]
                have inside := group_answers passage answers paren before.advance.advance
                  readable.advance.advance
                refine inside.bind fun arg plain => ?_
                have made : Expr.makeCall lexeme.text arg = .ok (.call lexeme.text arg) :=
                  Expr.make_call_ok.2 ⟨named, plain.1.not_missing, rfl⟩
                exact built_answers made ⟨(Expr.built_call _ _).2 ⟨named, plain.1⟩, plain.2⟩
              · rw [if_neg opens]
                exact variable_answers named before.advance readable.advance
      | number =>
          obtain ⟨value, read⟩ := isReadable.1 kind
          simp only [kind, modify_bind]
          exact .inl ⟨.num value, before.advance, number_ok.2 ⟨⟨value, read, rfl⟩, rfl⟩,
            ⟨Expr.built_num value, trivial⟩, readable.advance⟩
      | operator | closing | endMarker | other label =>
          simp only [kind]
          exact answers_complaint (α := α) _ _

theorem term_answers (answers : ∀ parser ∈ inner, Answers α parser Expr.Plain) :
    Answers α (term passage inner) Expr.Plain := by
  intro before readable
  unfold AnswersFrom
  rw [term, get_bind]
  cases found : before.ahead.head?.bind (·.sign?) with
  | none => exact factor_answers passage answers before readable
  | some op =>
      simp only [modify_bind]
      obtain ⟨lexeme, -, isSign⟩ := Option.bind_eq_some_iff.1 found
      have known := (sign_some.1 isSign).2.2
      have inside := factor_answers passage answers before.advance readable.advance
      refine inside.bind fun operand plain after readable => ?_
      exact answers_value ⟨(Expr.built_signed _ _).2 ⟨known, plain.1⟩, plain.2⟩ readable

theorem levels_answers {term : Parse (Expr α)} (answers : Answers α term Expr.Plain) :
    Answers α (levels term) Expr.Plain :=
  chain_answers (chain_answers (chain_answers answers))

theorem expression_answers (passage : Passage) (room : Nat) :
    Answers α (expression passage room : Parse (Expr α)) Expr.Plain := by
  induction room with
  | zero => exact levels_answers (term_answers nofun)
  | succ room induction =>
      refine levels_answers (term_answers ?_)
      rintro _ ⟨⟩
      exact induction

theorem whole_answers (passage : Passage) :
    Answers α (whole passage : Parse (Expr α)) fun tree =>
      tree.Plain ∧ tree.depth ≤ depthLimit := by
  intro before readable
  unfold AnswersFrom
  rw [whole, get_bind]
  refine (expression_answers passage _ before readable).bind fun root plain between readable => ?_
  unfold AnswersFrom
  rw [get_bind]
  cases ahead : between.ahead with
  | cons lexeme rest => exact answers_complaint (α := α) _ _
  | nil =>
      simp only
      split
      · exact answers_complaint (α := α) _ _
      · rename_i shallow
        exact answers_value ⟨plain, Nat.le_of_not_lt shallow⟩ readable

end

end Grammar

open Grammar Text

theorem ending_is_end (line column : Nat) (lines : List (List Char)) :
    (ending line column lines).isEnd = true := by
  induction lines generalizing line column with
  | nil => rfl
  | cons first others induction =>
      cases others with
      | nil => rfl
      | cons next rest => exact induction (line + 1) 0

def Lexeme.Sound (lexeme : Lexeme) : Prop :=
  (lexeme.kind = .number →
    lexeme.text ≠ "" ∧ ∀ c ∈ lexeme.text.toList, isAsciiDigit c = true) ∧
  (lexeme.kind = .identifier → IsName lexeme.text)

theorem Lexeme.Sound.readable {lexeme : Lexeme} (sound : lexeme.Sound) : Readable Float lexeme :=
  readable_double sound.1 fun identifier => (sound.2 identifier).ne_empty

theorem sound_end {lexeme : Lexeme} (isEnd : lexeme.isEnd = true) : lexeme.Sound := by
  have kind : lexeme.kind = .endMarker := eq_of_beq isEnd
  exact ⟨fun number => by simp [kind] at number, fun name => by simp [kind] at name⟩

theorem sound_piece {placed : PlacedPiece} {lexeme : Lexeme} (proper : placed.piece.Proper)
    (sound : placed.piece.offends = false) (isLexeme : placed.lexeme? = some lexeme) :
    lexeme.Sound := by
  obtain ⟨kind, isKind, rfl⟩ := Option.map_eq_some_iff.1 isLexeme
  cases piece : placed.piece with
  | blank c | stray c => simp [piece, Piece.kind?] at isKind
  | key c =>
      rw [piece] at isKind
      cases isKind
      rcases Scanner.of_key_cases c with kind | kind | kind <;>
        exact ⟨fun number => by simp [kind] at number, fun name => by simp [kind] at name⟩
  | run run =>
      rw [piece] at isKind proper sound
      cases isKind
      refine ⟨fun number => ⟨by simpa [Piece.text] using proper.1, ?_⟩, fun identifier => ?_⟩
      · have digit : run.head?.any isAsciiDigit = true := by
          by_contra other
          simp [other] at number
        simpa [Piece.offends, Piece.text, digit] using sound
      · have other : run.head?.any isAsciiDigit = false := by
          by_contra digit
          simp [digit] at identifier
        refine ⟨by simpa [Piece.text] using proper.1, by simpa [Piece.text] using proper.2,
          fun c first => ?_⟩
        have first : run.head? = some c := by simpa [Piece.text] using first
        simpa [first] using other

/-- The scanner's lexemes end with an end marker, and each is a number or a name if its kind
says so. -/
theorem sound_lexemes {text : String} {lexemes : List Lexeme}
    (scanned : lexemesOf text = .ok lexemes) :
    lexemes.getLast?.any Lexeme.isEnd = true ∧ ∀ lexeme ∈ lexemes, lexeme.Sound := by
  rw [lexemes_eq, outcome] at scanned
  split at scanned
  · cases scanned
  · rename_i sound
    cases scanned
    have isEnd := ending_is_end 0 0 (Scanner.linesOf.splitLines text.toList)
    refine ⟨by simp [isEnd], fun lexeme member => ?_⟩
    rcases List.mem_append.1 member with inside | final
    · obtain ⟨placed, isPlaced, isLexeme⟩ := List.mem_filterMap.1 inside
      have fine := List.find?_eq_none.1 sound placed isPlaced
      exact sound_piece (proper_of_placed isPlaced) (by simpa using fine) isLexeme
    · rw [List.mem_singleton.1 final]
      exact sound_end isEnd

theorem readable_lexemes {text : String} {lexemes : List Lexeme}
    (scanned : lexemesOf text = .ok lexemes) :
    lexemes.getLast?.any Lexeme.isEnd = true ∧ ∀ lexeme ∈ lexemes, Readable Float lexeme :=
  ⟨(sound_lexemes scanned).1, fun lexeme member => ((sound_lexemes scanned).2 lexeme member).readable⟩

theorem lexemes_error {text : String} {fault : Fault} (failed : lexemesOf text = .error fault) :
    ∃ site complaint, fault = .located .lexical site complaint := by
  rw [lexemes_eq, outcome] at failed
  split at failed
  · cases failed
    exact ⟨_, _, rfl⟩
  · cases failed

/-- A text has a plain tree of limited depth, or it is not of this language and the fault
says where. -/
theorem parse_answers (text : String) :
    (∃ tree : Expr Float, parse text = .ok tree ∧ tree.Plain ∧ tree.depth ≤ depthLimit) ∨
      ∃ stage site complaint, (stage = .lexical ∨ stage = .grammatical) ∧
        (parse text : Except Fault (Expr Float)) = .error (.located stage site complaint) := by
  unfold parse
  cases scanned : lexemesOf text with
  | error fault =>
      obtain ⟨site, complaint, rfl⟩ := lexemes_error scanned
      exact .inr ⟨_, site, complaint, .inl rfl, rfl⟩
  | ok lexemes =>
      obtain ⟨ended, readable⟩ := readable_lexemes scanned
      obtain ⟨passage, same⟩ : ∃ passage,
          (parseLexemes lexemes (some (Scanner.linesOf text)) : Except Fault (Expr Float)) =
            (run passage ⟨beforeEnd lexemes, 0, 0⟩).1 := parse_lexemes_eq ended
      have start : AllReadable Float ⟨beforeEnd lexemes, 0, 0⟩ := fun lexeme inside =>
        readable lexeme ((List.takeWhile_prefix _).subset inside)
      rw [Outcome.ok_bind, same]
      unfold Grammar.run EStateM.run
      rcases whole_answers passage _ start with
        ⟨tree, after, done, plain, -⟩ | ⟨site, complaint, after, failed⟩
      · rw [done]
        exact .inl ⟨tree, rfl, plain⟩
      · rw [failed]
        exact .inr ⟨_, site, complaint, .inr rfl, rfl⟩

end Fluxion
