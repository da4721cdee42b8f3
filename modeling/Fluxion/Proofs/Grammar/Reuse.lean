import Fluxion.Proofs.Grammar.Beginnings
import Fluxion.Proofs.Grammar.Course

/-!
One passage parsed again and again, each parse going on where the one before has left the
cursor, whether it failed or not. The cursor stays inside the list of lexemes, in front of the
first end marker or on it, and the count of open parentheses grows by those that a failing
parse has opened and not closed. Main statement: this holds of every parse, after any number
of parses before it.
-/

namespace Fluxion

open Grammar Outcome Progress

namespace Grammar

variable {α : Type} [Scalar α] {passage : Passage} {before after : Cursor}

theorem run_eq_ok {tree : Expr α} :
    run passage before = (.ok tree, after) ↔ whole passage before = .ok tree after := by
  unfold run EStateM.run
  cases (whole passage : Parse (Expr α)) before <;> simp

theorem run_eq_error {fault : Fault} :
    (run passage before : Except Fault (Expr α) × Cursor) = (.error fault, after) ↔
      (whole passage : Parse (Expr α)) before = .error fault after := by
  unfold run EStateM.run
  cases (whole passage : Parse (Expr α)) before <;> simp

/-- A whole parse moves the cursor in order; the limit leaves room for one parenthesis too
many. -/
theorem whole_moves (passage : Passage) (unended : ∀ lexeme ∈ before.ahead, lexeme.isEnd = false) :
    Moves (nestingLimit + 1) 0 start 0 before ((whole passage : Parse (Expr α)) before) := by
  have fits : 0 + (nestingLimit - before.nesting) < nestingLimit + 1 := by omega
  have steady : Steady (nestingLimit + 1) 0 start
      (expression passage (nestingLimit - before.nesting) : Parse (Expr α)) :=
    expression_steady passage fits
  rw [whole, get_bind]
  refine (steady before).bind fun root between named read goes ends => ?_
  rw [get_bind]
  cases starts : between.ahead with
  | cons lexeme rest =>
      have inside : lexeme ∈ before.ahead := by simp [goes.ahead, starts]
      have notEnd : lexeme.kind ≠ .endMarker := fun isEnd => by
        simpa [Lexeme.isEnd, isEnd] using unended lexeme inside
      rw [starts] at ends
      exact halts_over starts (step_none_of_ends ends (fun _ => rfl) fun isEnd => absurd isEnd notEnd)
  | nil =>
      simp only
      split
      · exact halts_here _ _ _
      · exact ⟨[], named, .refl _ _ _, ends⟩

section

variable {operand : Parse (Expr α)} {fault : Fault}

omit [Scalar α] in
theorem levels_at_fault (failed : operand before = .error fault after) :
    levels operand before = .error fault after := by
  have power : chain .power operand before = .error fault after := bind_error_of_error failed
  have product : chain .product (chain .power operand) before = .error fault after :=
    bind_error_of_error power
  exact bind_error_of_error product

theorem term_at_end (passage : Passage) (inner : Option (Parse (Expr α)))
    (atEnd : before.ahead = []) :
    term passage inner before = .error (passage.fault passage.stop .unexpectedEnd) before := by
  rw [term, get_bind, atEnd]
  show factor passage inner before = _
  rw [factor, get_bind, atEnd]
  rfl

/-- A parse that begins on the end marker fails there and leaves everything as it is. -/
theorem run_at_end (passage : Passage) (atEnd : before.ahead = []) :
    (run passage before : Except Fault (Expr α) × Cursor) =
      (.error (passage.fault passage.stop .unexpectedEnd), before) := by
  have failed : (expression passage (nestingLimit - before.nesting) : Parse (Expr α)) before =
      .error (passage.fault passage.stop .unexpectedEnd) before := by
    cases nestingLimit - before.nesting with
    | zero => exact levels_at_fault (term_at_end passage none atEnd)
    | succ room => exact levels_at_fault (term_at_end passage (some _) atEnd)
  rw [run_eq_error, whole, get_bind]
  exact bind_error_of_error failed

end

def afterParses (α : Type) [Scalar α] (passage : Passage) (cursor : Cursor) : Nat → Cursor
  | 0 => cursor
  | parses + 1 =>
      (run passage (afterParses α passage cursor parses) : Except Fault (Expr α) × Cursor).2

/-- Whatever may be looked at from the cursor on stands in the list, and ends with its first end
marker there. -/
structure Confined (lexemes : List Lexeme) (passage : Passage) (cursor : Cursor) : Prop where
  in_list : cursor.ahead ++ [passage.stop] <+: lexemes.drop cursor.position
  unended : ∀ lexeme ∈ cursor.ahead, lexeme.isEnd = false
  ended : passage.stop.isEnd = true

variable {lexemes stepped : List Lexeme}

omit [Scalar α] in
theorem Confined.behind (confined : Confined lexemes passage before)
    (split : before.ahead = stepped ++ after.ahead)
    (position : after.position = before.position + stepped.length) :
    Confined lexemes passage after where
  in_list := by
    obtain ⟨behind, inside⟩ := confined.in_list
    refine ⟨behind, ?_⟩
    rw [position, ← List.drop_drop, ← inside, split, List.append_assoc, List.append_assoc,
      List.append_assoc, List.drop_left]
  unended := fun lexeme inside => confined.unended lexeme (by simp [split, inside])
  ended := confined.ended

omit [Scalar α] in
theorem Confined.next (confined : Confined lexemes passage before) :
    lexemes[before.position]? = (before.ahead ++ [passage.stop]).head? := by
  obtain ⟨behind, split⟩ := confined.in_list
  rw [← List.head?_drop, ← split, List.append_assoc, List.head?_append, List.head?_append]
  cases before.ahead <;> rfl

omit [Scalar α] in
/-- What is stepped over stands in the list between the two places of the cursor. -/
theorem Confined.stretch (confined : Confined lexemes passage before)
    (split : before.ahead = stepped ++ after.ahead)
    (position : after.position = before.position + stepped.length) :
    (lexemes.drop before.position).take (after.position - before.position) = stepped := by
  have inside : stepped <+: lexemes.drop before.position := by
    refine .trans ?_ confined.in_list
    rw [split, List.append_assoc]
    exact List.prefix_append _ _
  rw [position, Nat.add_sub_cancel_left]
  exact (List.prefix_iff_eq_take.1 inside).symm

omit [Scalar α] in
theorem Confined.unended_between (confined : Confined lexemes passage before)
    (split : before.ahead = stepped ++ after.ahead)
    (position : after.position = before.position + stepped.length) {place : Nat}
    (low : before.position ≤ place) (high : place < after.position) :
    ∃ lexeme, lexemes[place]? = some lexeme ∧ lexeme.isEnd = false := by
  have inside : place - before.position < stepped.length := by omega
  have there : lexemes[place]? = stepped[place - before.position]? := by
    have reached : lexemes[before.position + (place - before.position)]? =
        ((lexemes.drop before.position).take (after.position - before.position))[
          place - before.position]? := by
      rw [List.getElem?_take_of_lt (by omega), List.getElem?_drop]
    rwa [confined.stretch split position, Nat.add_sub_cancel' low] at reached
  refine ⟨stepped[place - before.position], ?_, confined.unended _ ?_⟩
  · rw [there, List.getElem?_eq_getElem inside]
  · rw [split]
    exact List.mem_append_left _ (List.getElem_mem inside)

end Grammar

/-- Of the lexemes that a parse has stepped over, those that it took up: the most with which a
sentence begins. The one lexeme more is only looked at. -/
def TakenUp (stepped taken : List Lexeme) : Prop :=
  Begins taken ∧ (stepped = taken ∨
    ∃ lexeme, stepped = taken ++ [lexeme] ∧ ¬ Begins (taken ++ [lexeme]))

/-- What a parse of a list of lexemes does to the cursor. -/
structure SoundParse {α : Type} (lexemes : List Lexeme) (passage : Passage) (before : Cursor)
    (answer : Except Fault (Expr α)) (after : Cursor) : Prop where
  in_bounds : before.ahead ++ [passage.stop] <+: lexemes.drop before.position
  forward : before.position ≤ after.position
  /-- No end marker is stepped over. -/
  unended : ∀ place, before.position ≤ place → place < after.position →
    ∃ lexeme, lexemes[place]? = some lexeme ∧ lexeme.isEnd = false
  deeper : before.nesting ≤ after.nesting
  of_tree : ∀ tree, answer = .ok tree → after.nesting = before.nesting ∧
    ∃ stop, lexemes[after.position]? = some stop ∧ stop.isEnd = true
  of_fault : ∀ fault, answer = .error fault → ∃ taken,
    TakenUp ((lexemes.drop before.position).take (after.position - before.position)) taken ∧
      (after.nesting : Int) = before.nesting + unclosed taken
  at_end : ∀ stop, lexemes[before.position]? = some stop → stop.isEnd = true →
    after = before ∧
      answer = .error (.located .grammatical (stop.site passage.lines) .unexpectedEnd)

namespace Grammar

variable {α : Type} [Scalar α] {passage : Passage} {before after : Cursor} {lexemes : List Lexeme}

omit [Scalar α] in
theorem unclosed_of_begins {taken : List Lexeme} (begins : Begins taken) : 0 ≤ unclosed taken := by
  obtain ⟨limit, q, way⟩ := follow_of_begins begins
  have reached := follow_unclosed way
  have fresh : start.depth = 0 := rfl
  omega

omit [Scalar α] in
theorem Halts.stretch {limit : Nat} (halts : Halts limit start before after) :
    ∃ stepped taken, before.ahead = stepped ++ after.ahead ∧
      after.position = before.position + stepped.length ∧ TakenUp stepped taken ∧
      (after.nesting : Int) = before.nesting + unclosed taken := by
  obtain ⟨q, taken, between, goes, ends⟩ := halts
  have begins : Begins taken := begins_of_way goes.way
  have count : (between.nesting : Int) = before.nesting + unclosed taken := by
    have reached := follow_unclosed goes.way
    have nesting := goes.nesting
    have fresh : start.depth = 0 := rfl
    omega
  rcases ends with rfl | ⟨lexeme, rest, starts, stuck, rfl⟩
  · exact ⟨taken, taken, goes.ahead, goes.position, ⟨begins, .inl rfl⟩, count⟩
  · have misfit := not_begins_of_stuck goes.way stuck
    refine ⟨taken ++ [lexeme], taken, ?_, ?_, ⟨begins, .inr ⟨lexeme, rfl, misfit⟩⟩, count⟩
    · rw [goes.ahead, advance_ahead starts, starts, List.append_assoc]
      rfl
    · show between.position + 1 = _
      rw [goes.position, List.length_append]
      rfl

theorem Confined.parse_at_end (confined : Confined lexemes passage before)
    {answer : Except Fault (Expr α)}
    (ran : run passage before = (answer, after)) {stop : Lexeme}
    (here : lexemes[before.position]? = some stop) (isEnd : stop.isEnd = true) :
    after = before ∧
      answer = .error (.located .grammatical (stop.site passage.lines) .unexpectedEnd) := by
  rw [confined.next] at here
  cases starts : before.ahead with
  | cons lexeme rest =>
      rw [starts] at here
      cases here
      simp [confined.unended stop (by simp [starts])] at isEnd
  | nil =>
      rw [starts] at here
      cases here
      cases ran.symm.trans (run_at_end passage starts)
      exact ⟨rfl, rfl⟩

theorem sound_parse (confined : Confined lexemes passage before) {answer : Except Fault (Expr α)}
    (ran : run passage before = (answer, after)) :
    SoundParse lexemes passage before answer after ∧ Confined lexemes passage after := by
  have moves := whole_moves (α := α) passage confined.unended
  cases answer with
  | ok tree =>
      have done := run_eq_ok.1 ran
      rw [done] at moves
      obtain ⟨read, named, goes, -⟩ := moves
      obtain ⟨-, atEnd, -⟩ := whole_ok.1 done
      have behind := confined.behind goes.ahead goes.position
      have same : after.nesting = before.nesting := goes.nesting
      refine ⟨{ in_bounds := confined.in_list
                forward := by rw [goes.position]; exact Nat.le_add_right _ _
                unended := fun place => confined.unended_between goes.ahead goes.position
                deeper := Nat.le_of_eq same.symm
                of_tree := fun _ _ => ⟨same, passage.stop, ?_, confined.ended⟩
                of_fault := nofun
                at_end := fun stop => confined.parse_at_end ran }, behind⟩
      rw [behind.next, atEnd]
      rfl
  | error fault =>
      rw [run_eq_error.1 ran] at moves
      obtain ⟨stepped, taken, split, position, takenUp, count⟩ := Halts.stretch moves
      have closed : 0 ≤ unclosed taken := unclosed_of_begins takenUp.1
      refine ⟨{ in_bounds := confined.in_list
                forward := by rw [position]; exact Nat.le_add_right _ _
                unended := fun place => confined.unended_between split position
                deeper := by omega
                of_tree := nofun
                of_fault := fun _ _ => ⟨taken, ?_, count⟩
                at_end := fun stop => confined.parse_at_end ran }, confined.behind split position⟩
      rwa [confined.stretch split position]

end Grammar

open Grammar

/-- Every parse of a list of lexemes leaves the cursor in order for the next one, whatever the
parses before it came to. -/
theorem reused_parser_sound {α : Type} [Scalar α] {lexemes : List Lexeme} (lines : Option (List String))
    (ended : lexemes.getLast?.any Lexeme.isEnd = true) :
    ∃ passage start, Passage.ofLexemes lexemes lines = .ok (passage, start) ∧
      start.position = 0 ∧ start.nesting = 0 ∧ ∀ parses,
        SoundParse lexemes passage (afterParses α passage start parses)
          (run passage (afterParses α passage start parses) : Except Fault (Expr α) × Cursor).1
          (afterParses α passage start (parses + 1)) := by
  obtain ⟨stop, behind, split, isEnd, opens⟩ := passage_of_lexemes lines ended
  have confined : Confined lexemes ⟨stop, lines⟩ ⟨beforeEnd lexemes, 0, 0⟩ := by
    refine ⟨⟨behind, ?_⟩, fun lexeme inside => ?_, isEnd⟩
    · rw [List.append_assoc]
      exact split.symm
    · simpa using List.mem_takeWhile_imp inside
  have after : ∀ parses, Confined lexemes ⟨stop, lines⟩
      (afterParses α ⟨stop, lines⟩ ⟨beforeEnd lexemes, 0, 0⟩ parses) := by
    intro parses
    induction parses with
    | zero => exact confined
    | succ parses induction => exact (sound_parse (α := α) induction rfl).2
  exact ⟨_, _, opens, rfl, rfl, fun parses => (sound_parse (after parses) rfl).1⟩

/-- In `( x ) ) ( y` the first parse stops behind the closing parenthesis that is too many, the
second leaves one parenthesis open, and the third finds nothing and changes nothing. -/
theorem reused_parser_sound_of_two_groups :
    ∃ passage start, Passage.ofLexemes [⟨.opening, "(", 0, 0⟩, ⟨.identifier, "x", 0, 2⟩,
        ⟨.closing, ")", 0, 4⟩, ⟨.closing, ")", 0, 6⟩, ⟨.opening, "(", 0, 8⟩,
        ⟨.identifier, "y", 0, 10⟩, ⟨.endMarker, "", 0, 11⟩] none = .ok (passage, start) ∧
      (afterParses Float passage start 1).position = 4 ∧
      (afterParses Float passage start 2).nesting = 1 ∧
      afterParses Float passage start 3 = afterParses Float passage start 2 := by
  obtain ⟨passage, start, opens, -, -, sound⟩ := @reused_parser_sound Float _
    [⟨.opening, "(", 0, 0⟩, ⟨.identifier, "x", 0, 2⟩, ⟨.closing, ")", 0, 4⟩,
      ⟨.closing, ")", 0, 6⟩, ⟨.opening, "(", 0, 8⟩, ⟨.identifier, "y", 0, 10⟩,
      ⟨.endMarker, "", 0, 11⟩] none rfl
  cases opens
  exact ⟨_, _, rfl, rfl, rfl, ((sound 2).at_end ⟨.endMarker, "", 0, 11⟩ rfl rfl).1⟩

end Fluxion
