import Fluxion.Proofs.Grammar.Pace

/-!
Where the parser complains. The lexemes that lead somewhere are exactly those that begin a
sentence, since an operand and closing parentheses complete them. Main statement: the parser
blames the first lexeme with which what was read no longer begins a sentence, or the first
parenthesis that opens one level too many, or the end of a sentence whose tree is too deep.
-/

namespace Fluxion

open Grammar Outcome Progress

/-- The lexemes begin a sentence of the grammar with its end marker. -/
def Begins (lexemes : List Lexeme) : Prop :=
  ∃ phrase : Phrase (.chain .sum), ∃ stop : Lexeme, stop.isEnd = true ∧
    lexemes <+: phrase.yield ++ [stop]

def Lexeme.site (lexeme : Lexeme) (lines : Option (List String)) : Site :=
  ⟨lexeme.line + 1, lexeme.column + 1, lexeme.text, lines.bind (·[lexeme.line]?)⟩

def OpensTooDeep (before : List Lexeme) (paren : Lexeme) : Prop :=
  paren.kind = .opening ∧ unclosed before = nestingLimit ∧
    ∀ front, front <+: before → unclosed front ≤ nestingLimit

/-- What a complaint about a lexeme says of it and of the lexemes in front of it. -/
def Warranted (before : List Lexeme) (lexeme : Lexeme) : Complaint → Prop
  | .treeTooDeep most =>
      most = depthLimit ∧ lexeme.isEnd = true ∧ Begins (before ++ [lexeme])
  | .nestedTooDeep most =>
      most = nestingLimit ∧ OpensTooDeep before lexeme ∧ Begins (before ++ [lexeme])
  | _ => Begins before ∧ ¬ Begins (before ++ [lexeme])

namespace Grammar

variable {limit : Nat} {p q : Progress} {lexemes : List Lexeme}

theorem follow_of_begins (begins : Begins lexemes) :
    ∃ limit last, start.follow limit lexemes = some last := by
  obtain ⟨phrase, stop, isEnd, within⟩ := begins
  obtain ⟨named, done⟩ : ∃ named, start.follow phrase.nesting phrase.yield =
      some ⟨.operator named, 0⟩ := follow_phrase phrase rfl (Nat.le_of_eq (Nat.zero_add _))
  have finished : start.follow phrase.nesting (phrase.yield ++ [stop]) = some ⟨.nothing, 0⟩ :=
    (follow_behind done).trans (follow_step (step_end (eq_of_beq isEnd) named))
  exact ⟨phrase.nesting, follow_front finished within⟩

theorem not_begins_of_stuck {lexeme : Lexeme} (way : start.follow limit lexemes = some q)
    (stuck : ∀ bound, q.step bound lexeme = none) : ¬ Begins (lexemes ++ [lexeme]) := by
  intro continues
  obtain ⟨bound, last, done⟩ := follow_of_begins continues
  have more := follow_mono done (Nat.le_max_right limit bound)
  rw [follow_behind (follow_mono way (Nat.le_max_left limit bound)), follow_cons, stuck] at more
  cases more

theorem follow_nothing {depth : Nat} (done : follow limit ⟨.nothing, depth⟩ lexemes = some q) :
    q = ⟨.nothing, depth⟩ ∧ lexemes = [] := by
  cases lexemes with
  | nil =>
      cases done
      exact ⟨rfl, rfl⟩
  | cons lexeme rest =>
      rw [follow_cons] at done
      cases done

theorem step_none_of_rejects {lexeme : Lexeme} {complaint : Complaint}
    (rejects : Rejects limit q lexeme complaint) : q.step limit lexeme = none := by
  cases complaint with
  | treeTooDeep most => exact rejects.elim
  | nestedTooDeep most =>
      obtain ⟨-, opens, full, -⟩ := rejects
      rw [Option.eq_none_iff_forall_not_mem]
      intro next taken
      rcases step_cases taken with ⟨-, -, low, -⟩ | ⟨notOpening, -, -⟩
      · omega
      · exact notOpening opens
  | _ => exact rejects limit

theorem refused_unique {read before behind behind' : List Lexeme} {blamed paren : Lexeme}
    {q q' : Progress} (same : read ++ blamed :: behind = before ++ paren :: behind')
    (way : p.follow limit read = some q) (stuck : q.step limit blamed = none)
    (way' : p.follow limit before = some q') (stuck' : q'.step limit paren = none) :
    read = before ∧ blamed = paren ∧ q = q' := by
  induction read generalizing before p with
  | nil =>
      cases way
      cases before with
      | nil =>
          cases way'
          exact ⟨rfl, (List.cons.inj same).1, rfl⟩
      | cons first rest =>
          obtain ⟨rfl, -⟩ := List.cons.inj same
          rw [follow_cons, stuck] at way'
          cases way'
  | cons first rest induction =>
      cases before with
      | nil =>
          cases way'
          obtain ⟨rfl, -⟩ := List.cons.inj same
          rw [follow_cons, stuck'] at way
          cases way
      | cons first' rest' =>
          obtain ⟨rfl, rest⟩ := List.cons.inj same
          rw [follow_cons, Option.bind_eq_some_iff] at way way'
          obtain ⟨between, taken, way⟩ := way
          obtain ⟨between', taken', way'⟩ := way'
          cases taken.symm.trans taken'
          obtain ⟨rfl, sameBlamed, sameLast⟩ := induction rest way way'
          exact ⟨rfl, sameBlamed, sameLast⟩

theorem step_to_nothing {lexeme : Lexeme} (taken : p.step limit lexeme = some q)
    (ended : q.expects = .nothing) :
    lexeme.kind = .endMarker ∧ ∃ named, p.expects = .operator named ∧ p.depth = 0 := by
  obtain ⟨expects, depth⟩ := p
  cases expects <;> cases kind : lexeme.kind <;>
    simp only [step, begun, continued, opened, kind, reduceCtorEq, if_true, if_false] at taken <;>
    grind

theorem sentence_of_nothing (fresh : p.expects ≠ .nothing) (ended : q.expects = .nothing)
    (done : p.follow limit lexemes = some q) :
    ∃ sentence stop named, lexemes = sentence ++ [stop] ∧ stop.isEnd = true ∧
      p.follow limit sentence = some ⟨.operator named, 0⟩ := by
  induction lexemes generalizing p with
  | nil =>
      cases done
      exact absurd ended fresh
  | cons lexeme rest induction =>
      rw [follow_cons, Option.bind_eq_some_iff] at done
      obtain ⟨between, taken, done⟩ := done
      by_cases last : between.expects = .nothing
      · obtain ⟨isEnd, named, operand, outside⟩ := step_to_nothing taken last
        obtain ⟨expects, depth⟩ := p
        obtain ⟨expects', depth'⟩ := between
        cases operand
        cases outside
        cases last
        obtain ⟨-, rfl⟩ := follow_nothing done
        exact ⟨[], lexeme, named, rfl, beq_of_eq isEnd, rfl⟩
      · obtain ⟨sentence, stop, named, rfl, isEnd, done⟩ := induction last done
        exact ⟨lexeme :: sentence, stop, named, rfl, isEnd, (follow_step taken).trans done⟩

section

variable {α : Type} [Scalar α]

/-- What leads behind an operand outside all parentheses is a sentence. -/
theorem sentence_of_follow (readable : ∀ lexeme ∈ lexemes, Readable α lexeme) {named : Bool}
    (done : start.follow limit lexemes = some ⟨.operator named, 0⟩) :
    ∃ phrase : Phrase (.chain .sum), phrase.yield = lexemes := by
  let passage : Passage := ⟨⟨.endMarker, "", 0, 0⟩, none⟩
  have keeps : Keeps passage (0 + limit) 0 start (expression passage limit : Parse (Expr α)) :=
    expression_keeps rfl limit 0
  have finished : start.follow limit (lexemes ++ [passage.stop]) = some ⟨.nothing, 0⟩ :=
    (follow_behind done).trans (follow_step (step_end rfl named))
  have paced := keeps ⟨lexemes, 0, 0⟩ readable
  rw [Nat.zero_add] at paced
  cases outcome : (expression passage limit : Parse (Expr α)) ⟨lexemes, 0, 0⟩ with
  | error fault after =>
      rw [outcome] at paced
      obtain ⟨read, blamed, behind, complaint, q, split, way, -, rejects⟩ := paced
      have split : lexemes ++ [passage.stop] = read ++ blamed :: behind := split
      have way : start.follow limit read = some q := way
      rw [split, follow_behind way, follow_cons, step_none_of_rejects rejects] at finished
      cases finished
  | ok root after =>
      obtain ⟨phrase, -, -, covers⟩ := (reads_expression passage limit).sound outcome
      rw [outcome] at paced
      obtain ⟨-, read, last, split, way, ends⟩ := paced
      have split : lexemes = read ++ after.ahead := split
      have way : start.follow limit read = some ⟨.operator last, 0⟩ := way
      have atEnd : after.ahead = [] := by
        cases ahead : after.ahead with
        | nil => rfl
        | cons lexeme rest =>
            rw [ahead] at ends
            rw [split, ahead, follow_behind way, follow_cons] at done
            by_cases isEnd : lexeme.kind = .endMarker
            · rw [step_end isEnd last, Option.bind_some] at done
              cases (follow_nothing done).1
            · rw [step_none_of_ends ends (fun _ => rfl) (fun same => absurd same isEnd)] at done
              cases done
      refine ⟨phrase, ?_⟩
      rw [show lexemes = _ from covers.ahead, atEnd, List.append_nil]

def closingParen : Lexeme := ⟨.closing, ")", 0, 0⟩

def someName : Lexeme := ⟨.identifier, "x", 0, 0⟩

theorem follow_closings (named : Bool) (depth : Nat) :
    ∃ last, follow limit ⟨.operator named, depth⟩ (List.replicate depth closingParen) =
      some ⟨.operator last, 0⟩ := by
  induction depth generalizing named with
  | zero => exact ⟨named, rfl⟩
  | succ depth induction =>
      obtain ⟨last, done⟩ := induction false
      exact ⟨last, (follow_step (step_closing rfl named depth)).trans done⟩

/-- Every place in front of the end can be completed to a sentence. -/
theorem completed (unfinished : q.expects ≠ .nothing) :
    ∃ more named, (∀ lexeme ∈ more, Readable α lexeme) ∧
      q.follow limit more = some ⟨.operator named, 0⟩ := by
  have closings : ∀ lexeme ∈ List.replicate q.depth closingParen, Readable α lexeme := by
    intro lexeme inside
    rw [List.eq_of_mem_replicate inside]
    exact ⟨nofun, nofun⟩
  have withName : ∀ lexeme ∈ someName :: List.replicate q.depth closingParen, Readable α lexeme := by
    intro lexeme inside
    rcases List.mem_cons.1 inside with rfl | inside
    · exact ⟨nofun, fun _ => by simp [someName]⟩
    · exact closings lexeme inside
  have closes (named : Bool) : ∃ last, follow limit ⟨.operator named, q.depth⟩
      (List.replicate q.depth closingParen) = some ⟨.operator last, 0⟩ :=
    follow_closings named q.depth
  have operand (begins : q.expects = .operand ∨ q.expects = .factor) :
      ∃ named, q.follow limit (someName :: List.replicate q.depth closingParen) =
        some ⟨.operator named, 0⟩ := by
    obtain ⟨last, done⟩ := closes true
    exact ⟨last, (follow_step (step_name rfl begins)).trans done⟩
  cases expects : q.expects with
  | operand =>
      obtain ⟨named, done⟩ := operand (.inl expects)
      exact ⟨_, named, withName, done⟩
  | factor =>
      obtain ⟨named, done⟩ := operand (.inr expects)
      exact ⟨_, named, withName, done⟩
  | operator named =>
      obtain ⟨last, done⟩ := closes named
      refine ⟨_, last, closings, ?_⟩
      rw [← done, ← expects]
  | nothing => exact absurd expects unfinished

theorem begins_of_follow (readable : ∀ lexeme ∈ lexemes, Readable α lexeme)
    (done : start.follow limit lexemes = some q) : Begins lexemes := by
  by_cases finished : q.expects = .nothing
  · obtain ⟨sentence, stop, named, rfl, isEnd, done⟩ := sentence_of_nothing
      (show Expects.operand ≠ .nothing from nofun) finished done
    obtain ⟨phrase, rfl⟩ := sentence_of_follow
      (fun lexeme inside => readable lexeme (List.mem_append_left _ inside)) done
    exact ⟨phrase, stop, isEnd, List.prefix_refl _⟩
  · obtain ⟨more, named, readableMore, completes⟩ := completed (α := α) finished
    have readableAll : ∀ lexeme ∈ lexemes ++ more, Readable α lexeme := fun lexeme inside =>
      (List.mem_append.1 inside).elim (readable lexeme) (readableMore lexeme)
    obtain ⟨phrase, same⟩ := sentence_of_follow readableAll ((follow_behind done).trans completes)
    refine ⟨phrase, ⟨.endMarker, "", 0, 0⟩, rfl, ?_⟩
    rw [same, List.append_assoc]
    exact List.prefix_append _ _

end

end Grammar

/-- What a parse gets to see: the lexemes up to the first end marker, and the marker. -/
def seen (lexemes : List Lexeme) : List Lexeme := lexemes.take ((beforeEnd lexemes).length + 1)

theorem passage_of_lexemes {lexemes : List Lexeme} (lines : Option (List String))
    (ended : lexemes.getLast?.any Lexeme.isEnd = true) :
    ∃ stop behind, lexemes = beforeEnd lexemes ++ stop :: behind ∧ stop.isEnd = true ∧
      Passage.ofLexemes lexemes lines = .ok (⟨stop, lines⟩, ⟨beforeEnd lexemes, 0, 0⟩) := by
  cases last : lexemes.getLast? with
  | none => simp [last] at ended
  | some lexeme =>
      have isEnd : lexeme.isEnd = true := by simpa [last] using ended
      obtain ⟨stop, found⟩ : ∃ stop, lexemes.find? (·.isEnd) = some stop := by
        rw [← Option.isSome_iff_exists, List.find?_isSome]
        exact ⟨lexeme, List.mem_of_getLast? last, isEnd⟩
      have rest := found
      rw [List.find?_eq_head?_dropWhile_not, List.head?_eq_some_iff] at rest
      obtain ⟨behind, rest⟩ := rest
      refine ⟨stop, behind, ?_, List.find?_some found, ?_⟩
      · rw [← rest, beforeEnd, List.takeWhile_append_dropWhile]
      · unfold Passage.ofLexemes
        simp only [last, isEnd, if_true, found]
        rfl

section

variable {α : Type} [Scalar α]

theorem parse_lexemes_seen {lexemes : List Lexeme} {lines : Option (List String)}
    (ended : lexemes.getLast?.any Lexeme.isEnd = true) :
    ∃ stop, seen lexemes = beforeEnd lexemes ++ [stop] ∧ stop.isEnd = true ∧
      (parseLexemes lexemes lines : Except Fault (Expr α)) =
        (run ⟨stop, lines⟩ ⟨beforeEnd lexemes, 0, 0⟩).1 := by
  obtain ⟨stop, behind, split, isEnd, opens⟩ := passage_of_lexemes lines ended
  refine ⟨stop, ?_, isEnd, ?_⟩
  · unfold seen
    generalize beforeEnd lexemes = front at split ⊢
    rw [split, List.take_length_add_append]
    rfl
  · rw [parseLexemes, opens]
    rfl

variable {passage : Passage} {before behind : List Lexeme} {lexeme paren : Lexeme} {q : Progress}

theorem warranted_of_rejects {complaint : Complaint}
    (readable : ∀ l ∈ before ++ [lexeme], Readable α l)
    (way : start.follow nestingLimit before = some q)
    (rejects : Rejects nestingLimit q lexeme complaint) : Warranted before lexeme complaint := by
  have begins : Begins before :=
    begins_of_follow (fun l inside => readable l (List.mem_append_left _ inside)) way
  cases complaint with
  | treeTooDeep most => exact rejects.elim
  | nestedTooDeep most =>
      obtain ⟨same, opens, full, next, taken⟩ := rejects
      refine ⟨same, ⟨opens, ?_, fun front isFront => ?_⟩, ?_⟩
      · have reached := follow_unclosed way
        rw [full] at reached
        simpa [start] using reached.symm
      · obtain ⟨between, wayFront⟩ := follow_front way isFront
        have low := follow_depth_le wayFront (Nat.zero_le _)
        have reached := follow_unclosed wayFront
        have fresh : start.depth = 0 := rfl
        omega
      · have further := follow_mono way (Nat.le_succ nestingLimit)
        exact begins_of_follow readable ((follow_behind further).trans (follow_step taken))
  | _ => exact ⟨begins, not_begins_of_stuck way rejects⟩

/-- A parenthesis one level too deep cannot be taken, but could be if more might be open. -/
theorem stuck_of_opens (opens : OpensTooDeep before paren) (begins : Begins (before ++ [paren])) :
    ∃ q, start.follow nestingLimit before = some q ∧ q.step nestingLimit paren = none ∧
      ∃ bound next, q.step bound paren = some next := by
  obtain ⟨isOpening, full, low⟩ := opens
  obtain ⟨limit, last, done⟩ := follow_of_begins begins
  rw [follow_append, Option.bind_eq_some_iff] at done
  obtain ⟨q, way, done⟩ := done
  rw [follow_cons, Option.bind_eq_some_iff] at done
  obtain ⟨next, taken, -⟩ := done
  have reached := follow_unclosed way
  have fresh : start.depth = 0 := rfl
  refine ⟨q, follow_within way fun front isFront => ?_, ?_, limit, next, taken⟩
  · have lowFront := low front isFront
    omega
  · rw [Option.eq_none_iff_forall_not_mem]
    intro other takenToo
    rcases step_cases takenToo with ⟨-, -, below, -⟩ | ⟨notOpening, -, -⟩
    · omega
    · exact notOpening isOpening

theorem refused_at_opening {lexemes : List Lexeme} {fault : Fault}
    (refuses : Refuses passage nestingLimit start lexemes fault)
    (split : lexemes ++ [passage.stop] = before ++ paren :: behind)
    (opens : OpensTooDeep before paren) (begins : Begins (before ++ [paren])) :
    fault = passage.fault paren (.nestedTooDeep nestingLimit) := by
  obtain ⟨q, way, stuck, bound, next, taken⟩ := stuck_of_opens opens begins
  obtain ⟨read, blamed, rest, complaint, last, splitToo, wayToo, rfl, rejects⟩ := refuses
  obtain ⟨rfl, rfl, rfl⟩ := refused_unique (splitToo.symm.trans split) wayToo
    (step_none_of_rejects rejects) way stuck
  cases complaint with
  | treeTooDeep most => exact rejects.elim
  | nestedTooDeep most => rw [rejects.1]
  | _ =>
      have never := (rejects bound).symm.trans taken
      cases never

end

/-- Every complaint of the parser is about the first lexeme that warrants one, and too many
open parentheses are complained of wherever they are first met. -/
theorem complaints_at_first_misfit {lexemes : List Lexeme} {lines : Option (List String)}
    (ended : lexemes.getLast?.any Lexeme.isEnd = true)
    (readable : ∀ lexeme ∈ lexemes, Readable Float lexeme) :
    (∀ fault, (parseLexemes lexemes lines : Except Fault (Expr Float)) = .error fault →
      ∃ before lexeme behind complaint, seen lexemes = before ++ lexeme :: behind ∧
        fault = .located .grammatical (lexeme.site lines) complaint ∧
          Warranted before lexeme complaint) ∧
    ∀ before paren behind, seen lexemes = before ++ paren :: behind →
      OpensTooDeep before paren → Begins (before ++ [paren]) →
        (parseLexemes lexemes lines : Except Fault (Expr Float)) =
          .error (.located .grammatical (paren.site lines) (.nestedTooDeep nestingLimit)) := by
  obtain ⟨stop, sees, isEnd, same⟩ : ∃ stop, seen lexemes = beforeEnd lexemes ++ [stop] ∧
      stop.isEnd = true ∧ (parseLexemes lexemes lines : Except Fault (Expr Float)) =
        (run ⟨stop, lines⟩ ⟨beforeEnd lexemes, 0, 0⟩).1 := parse_lexemes_seen ended
  have readableSeen : ∀ l ∈ seen lexemes, Readable Float l :=
    fun l inside => readable l (List.mem_of_mem_take inside)
  rw [same]
  rw [sees] at readableSeen ⊢
  have readableFront : ∀ l ∈ beforeEnd lexemes, Readable Float l :=
    fun l inFront => readableSeen l (List.mem_append_left _ inFront)
  have notEnd : ∀ l ∈ beforeEnd lexemes, l.kind ≠ .endMarker := fun l inFront isLast => by
    simpa [Lexeme.isEnd, isLast] using List.mem_takeWhile_imp inFront
  let passage : Passage := ⟨stop, lines⟩
  have ends : passage.stop.isEnd = true := isEnd
  rcases whole_paced ends readableFront notEnd with ⟨fault, failed, refuses⟩ | ⟨⟨last, finished⟩, outcome⟩
  · rw [failed]
    constructor
    · rintro _ ⟨⟩
      obtain ⟨read, blamed, behind, complaint, q, split, way, rfl, rejects⟩ := refuses
      rw [show beforeEnd lexemes ++ [stop] = _ from split] at readableSeen
      refine ⟨read, blamed, behind, complaint, split, rfl, warranted_of_rejects (α := Float) ?_ way rejects⟩
      exact fun l inside => readableSeen l (by
        rw [← List.singleton_append, ← List.append_assoc]
        exact List.mem_append_left _ inside)
    · intro before paren behind split opens begins
      rw [refused_at_opening refuses split opens begins]
      rfl
  · constructor
    · intro fault failed
      rcases outcome with ⟨tree, done⟩ | tooDeep
      · rw [done] at failed
        cases failed
      · rw [tooDeep] at failed
        cases failed
        exact ⟨_, stop, [], _, rfl, rfl, rfl, isEnd, begins_of_follow readableSeen finished⟩
    · intro before paren behind split opens begins
      -- a parenthesis that cannot be taken stands on no way to the end
      obtain ⟨q, way, stuck, -⟩ := stuck_of_opens opens begins
      rw [split, follow_behind way, follow_cons, stuck] at finished
      cases finished

/-- In `2 + )` the parenthesis is blamed, and `2 +` begins a sentence. -/
theorem complaints_at_first_misfit_of_sum :
    Begins [⟨.number, "2", 0, 0⟩, ⟨.operator, "+", 0, 2⟩] ∧
      ¬ Begins [⟨.number, "2", 0, 0⟩, ⟨.operator, "+", 0, 2⟩, ⟨.closing, ")", 0, 4⟩] := by
  have readable : ∀ lexeme ∈ [⟨.number, "2", 0, 0⟩, ⟨.operator, "+", 0, 2⟩,
      ⟨.closing, ")", 0, 4⟩, ⟨.endMarker, "", 0, 5⟩], Readable Float lexeme := by
    intro lexeme inside
    simp only [List.mem_cons, List.not_mem_nil, or_false] at inside
    rcases inside with rfl | rfl | rfl | rfl
    · exact readable_double (fun _ => ⟨by decide, by simp [Text.isAsciiDigit]⟩) fun name => by cases name
    all_goals constructor <;> intro kind <;> cases kind
  have complains := (@complaints_at_first_misfit _ none rfl readable).1 _ rfl
  obtain ⟨before, lexeme, behind, complaint, split, same, warranted⟩ := complains
  -- the column tells which of the four lexemes is blamed
  obtain _ | ⟨first, _ | ⟨second, _ | ⟨third, rest⟩⟩⟩ := before
  · cases split
    cases same
  · cases split
    cases same
  · cases split
    cases same
    exact warranted
  · have last : rest ++ lexeme :: behind = [⟨.endMarker, "", 0, 5⟩] := by
      injection split with _ split
      injection split with _ split
      injection split with _ split
      exact split.symm
    rcases List.append_eq_singleton_iff.1 last with ⟨-, only⟩ | ⟨-, none⟩
    · cases only
      cases same
    · cases none

end Fluxion
