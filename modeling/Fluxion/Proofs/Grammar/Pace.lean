import Fluxion.Proofs.Grammar.Answers
import Fluxion.Proofs.Grammar.Progress

/-!
The parser keeps pace with the progress of a sentence. What a part of the parser has read
leads from the place where it begins to the place behind its category, and what stands next
does not continue that category. Where it complains, everything in front of the lexeme that
it blames leads somewhere, and the lexeme itself cannot be taken there. Each part of the
parser is shown to keep pace from what it is made of.
-/

namespace Fluxion.Grammar

open Outcome Progress

/-- What stands next continues neither a name nor a chain of operators that bind at least as
tightly as this. -/
def Ends (rank : Nat) (named : Bool) (ahead : List Lexeme) : Prop :=
  ∀ lexeme ∈ ahead.head?, (named = true → lexeme.kind ≠ .opening) ∧
    ∀ level : Level, rank ≤ level.rank → lexeme.chainOp? level = none

/-- Why a lexeme cannot be taken: it may stand here only if one more parenthesis may be open,
or it may not stand here at all. -/
def Rejects (limit : Nat) (q : Progress) (lexeme : Lexeme) : Complaint → Prop
  | .treeTooDeep _ => False
  | .nestedTooDeep most => most = nestingLimit ∧ lexeme.kind = .opening ∧ q.depth = limit ∧
      ∃ next, q.step (limit + 1) lexeme = some next
  | _ => ∀ bound, q.step bound lexeme = none

/-- The fault blames the first lexeme that cannot be taken. -/
def Refuses (passage : Passage) (limit : Nat) (p : Progress) (ahead : List Lexeme)
    (fault : Fault) : Prop :=
  ∃ read blamed behind complaint q, ahead ++ [passage.stop] = read ++ blamed :: behind ∧
    p.follow limit read = some q ∧ fault = passage.fault blamed complaint ∧
      Rejects limit q blamed complaint

variable {α : Type}

/-- A tree is made of what leads behind an operand, or something is refused. -/
def Paced (passage : Passage) (limit rank : Nat) (p : Progress) (depth : Nat)
    (ahead : List Lexeme) : EStateM.Result Fault Cursor (Expr α) → Prop
  | .ok tree after => tree.isMissing = false ∧ ∃ read named, ahead = read ++ after.ahead ∧
      p.follow limit read = some ⟨.operator named, depth⟩ ∧ Ends rank named after.ahead
  | .error fault _ => Refuses passage limit p ahead fault

variable {passage : Passage} {limit rank depth : Nat} {p q : Progress}
  {front ahead : List Lexeme}

theorem ends_nil (rank : Nat) (named : Bool) : Ends rank named [] := nofun

theorem ends_operand (rest : List Lexeme) : Ends 3 false rest :=
  fun _ _ => ⟨nofun, fun level above => absurd above (by cases level <;> decide)⟩

theorem ends_cons {named : Bool} {lexeme : Lexeme} {rest : List Lexeme} :
    Ends rank named (lexeme :: rest) ↔ (named = true → lexeme.kind ≠ .opening) ∧
      ∀ level : Level, rank ≤ level.rank → lexeme.chainOp? level = none := by
  simp [Ends]

theorem rank_injective {level other : Level} (same : level.rank = other.rank) : level = other := by
  cases level <;> cases other <;> first | rfl | cases same

/-- Where no operator of the level stands, what ends tighter chains ends those of the level. -/
theorem Ends.at_rank {level : Level} {named : Bool} (ends : Ends (level.rank + 1) named ahead)
    (none : ahead.head?.bind (·.chainOp? level) = none) : Ends level.rank named ahead := by
  intro lexeme first
  obtain ⟨notCall, noOperator⟩ := ends lexeme first
  rw [first, Option.bind_some] at none
  refine ⟨notCall, fun other above => ?_⟩
  rcases Nat.eq_or_lt_of_le above with same | above
  · rw [← rank_injective same]
    exact none
  · exact noOperator other above

theorem chain_op_of_known {lexeme : Lexeme} (isOperator : lexeme.kind = .operator)
    (known : (BinaryOp.ofSymbol lexeme.text).isKnown = true) :
    ∃ level, lexeme.chainOp? level = some (BinaryOp.ofSymbol lexeme.text) := by
  have placed : ∃ level, (BinaryOp.ofSymbol lexeme.text).level? = some level := by
    cases op : BinaryOp.ofSymbol lexeme.text with
    | other symbol => simp [op, BinaryOp.isKnown] at known
    | _ => exact ⟨_, rfl⟩
  obtain ⟨level, placed⟩ := placed
  exact ⟨level, chain_op_some.2 ⟨isOperator, (BinaryOp.symbol_of_symbol _).symm, placed⟩⟩

theorem known_of_chain_op {lexeme : Lexeme} {level : Level} {op : BinaryOp}
    (isOp : lexeme.chainOp? level = some op) :
    lexeme.kind = .operator ∧ (BinaryOp.ofSymbol lexeme.text).isKnown = true := by
  obtain ⟨isOperator, spelled, placed⟩ := chain_op_some.1 isOp
  rw [spelled, BinaryOp.of_symbol_symbol placed]
  exact ⟨isOperator, BinaryOp.known_of_level placed⟩

/-- What continues no chain behind an operand can only close a parenthesis or end the text. -/
theorem step_none_of_ends {named : Bool} {lexeme : Lexeme} {rest : List Lexeme}
    (ends : Ends 0 named (lexeme :: rest)) (closes : lexeme.kind = .closing → depth = 0)
    (ending : lexeme.kind = .endMarker → depth ≠ 0) (bound : Nat) :
    step bound ⟨.operator named, depth⟩ lexeme = none := by
  obtain ⟨notCall, noOperator⟩ := ends_cons.1 ends
  cases kind : lexeme.kind with
  | opening =>
      have bare : named = false := Bool.eq_false_iff.2 fun isNamed => notCall isNamed kind
      simp [step, continued, kind, bare]
  | closing => simp [step, continued, kind, closes kind]
  | endMarker => simp [step, continued, kind, ending kind]
  | operator =>
      by_cases known : (BinaryOp.ofSymbol lexeme.text).isKnown = true
      · obtain ⟨level, isOp⟩ := chain_op_of_known kind known
        simp [noOperator level (Nat.zero_le _)] at isOp
      · simp [step, continued, kind, known]
  | number | identifier | other label => simp [step, continued, kind]

theorem step_none_of_begun {lexeme : Lexeme}
    (begins : p.expects = .factor ∨ p.expects = .operand ∧ lexeme.sign? = none)
    (opens : lexeme.kind ≠ .opening) (named : lexeme.kind ≠ .identifier)
    (number : lexeme.kind ≠ .number) (bound : Nat) : p.step bound lexeme = none := by
  have noFactor : p.begun bound lexeme = none := by
    cases kind : lexeme.kind <;> simp_all [begun]
  obtain ⟨expects, depth⟩ := p
  rcases begins with rfl | ⟨rfl, unsigned⟩
  · exact noFactor
  · by_cases isOperator : lexeme.kind = .operator
    · have unknown : (SignOp.ofSymbol lexeme.text).isKnown = false := by
        simpa [Lexeme.sign?, isOperator] using unsigned
      simp [step, isOperator, unknown]
    · simpa [step, isOperator] using noFactor

theorem Refuses.behind (way : p.follow limit front = some q) {fault : Fault}
    (refuses : Refuses passage limit q ahead fault) :
    Refuses passage limit p (front ++ ahead) fault := by
  obtain ⟨read, blamed, behind, complaint, last, split, done, same, rejects⟩ := refuses
  refine ⟨front ++ read, blamed, behind, complaint, last, ?_, ?_, same, rejects⟩
  · rw [List.append_assoc, split, List.append_assoc]
  · rw [follow_behind way, done]

theorem Paced.behind {outcome : EStateM.Result Fault Cursor (Expr α)}
    (way : p.follow limit front = some q) (paced : Paced passage limit rank q depth ahead outcome) :
    Paced passage limit rank p depth (front ++ ahead) outcome := by
  cases outcome with
  | error fault after => exact Refuses.behind way paced
  | ok tree after =>
      obtain ⟨there, read, named, split, done, ends⟩ := paced
      refine ⟨there, front ++ read, named, ?_, ?_, ends⟩
      · rw [split, List.append_assoc]
      · rw [follow_behind way, done]

theorem Paced.step {lexeme : Lexeme} {outcome : EStateM.Result Fault Cursor (Expr α)}
    (taken : p.step limit lexeme = some q)
    (paced : Paced passage limit rank q depth ahead outcome) :
    Paced passage limit rank p depth (lexeme :: ahead) outcome := by
  have way : p.follow limit [lexeme] = some q := follow_step taken
  exact Paced.behind way paced

theorem Paced.bind {parser : Parse (Expr α)} {rest : Expr α → Parse (Expr α)} {before : Cursor}
    {rank' depth' : Nat} (paced : Paced passage limit rank p depth ahead (parser before))
    (continues : ∀ tree after named, tree.isMissing = false → after.ahead <:+ ahead →
      Ends rank named after.ahead →
      Paced passage limit rank' ⟨.operator named, depth⟩ depth' after.ahead (rest tree after)) :
    Paced passage limit rank' p depth' ahead ((parser >>= rest) before) := by
  cases outcome : parser before with
  | error fault after =>
      rw [bind_error_of_error outcome]
      rw [outcome] at paced
      exact paced
  | ok tree between =>
      rw [bind_ok_of_ok outcome]
      rw [outcome] at paced
      obtain ⟨there, read, named, split, done, ends⟩ := paced
      have behind := continues tree between named there ⟨read, split.symm⟩ ends
      rw [split]
      exact Paced.behind done behind

theorem advance_ahead {before : Cursor} {lexeme : Lexeme} {rest : List Lexeme}
    (starts : before.ahead = lexeme :: rest) : before.advance.ahead = rest := by
  rw [Cursor.advance, starts]
  rfl

theorem expect_closing_at_end {before : Cursor} (starts : before.ahead = []) :
    expectClosing passage before = .error (passage.fault passage.stop .expectedClosing) before := by
  rw [expectClosing, get_bind, starts]
  rfl

theorem expect_closing_at_other {before : Cursor} {lexeme : Lexeme} {behind : List Lexeme}
    (starts : before.ahead = lexeme :: behind) (other : lexeme.kind ≠ .closing) :
    expectClosing passage before =
      .error (passage.fault lexeme .expectedClosing) before.advance := by
  rw [expectClosing, get_bind, starts]
  simp only [modify_bind, if_neg other]
  rfl

theorem closing_paced (ended : passage.stop.isEnd = true) {root : Expr α} {named : Bool}
    {before : Cursor} (there : root.isMissing = false) (ends : Ends 0 named before.ahead) :
    Paced passage limit 3 ⟨.operator named, depth + 1⟩ depth before.ahead
      ((expectClosing passage >>= fun _ => pure root) before) := by
  have isEnd : passage.stop.kind = .endMarker := eq_of_beq ended
  cases ahead : before.ahead with
  | nil =>
      rw [bind_error_of_error (expect_closing_at_end ahead)]
      refine ⟨[], passage.stop, [], _, _, rfl, rfl, rfl, fun bound => ?_⟩
      simp [step, continued, isEnd]
  | cons lexeme behind =>
      rw [ahead] at ends
      by_cases closes : lexeme.kind = .closing
      · have done : expectClosing passage before = .ok () before.advance.closed :=
          expect_closing_ok.2 ⟨⟨lexeme, closes⟩, behind, ahead, rfl⟩
        rw [bind_ok_of_ok done]
        refine ⟨there, [lexeme], false, ?_, follow_step (step_closing closes named depth), ?_⟩
        · show lexeme :: behind = lexeme :: before.ahead.tail
          rw [ahead]
          rfl
        · exact ends_operand _
      · rw [bind_error_of_error (expect_closing_at_other ahead closes)]
        refine ⟨[], lexeme, behind ++ [passage.stop], _, _, rfl, rfl, rfl, fun bound => ?_⟩
        exact step_none_of_ends ends (fun same => absurd same closes)
          (fun _ => Nat.succ_ne_zero _) bound

variable [Scalar α]

theorem AllReadable.suffix {before after : Cursor} (readable : AllReadable α before)
    (isSuffix : after.ahead <:+ before.ahead) : AllReadable α after :=
  fun lexeme inside => readable lexeme (isSuffix.subset inside)

def Keeps (passage : Passage) (limit rank : Nat) (p : Progress) (parser : Parse (Expr α)) :
    Prop :=
  ∀ before, AllReadable α before →
    Paced passage limit rank p p.depth before.ahead (parser before)

section

variable {level : Level} {operand : Parse (Expr α)}

theorem chain_from_paced
    (keeps : Keeps passage limit (level.rank + 1) ⟨.operand, depth⟩ operand) {left : Nat}
    {root : Expr α} {named : Bool} {before : Cursor} (readable : AllReadable α before)
    (there : root.isMissing = false) (enough : before.ahead.length ≤ left)
    (ends : Ends (level.rank + 1) named before.ahead) :
    Paced passage limit level.rank ⟨.operator named, depth⟩ depth before.ahead
      (chainFrom level operand left root before) := by
  induction left generalizing root named before with
  | zero =>
      have atEnd : before.ahead = [] := List.length_eq_zero_iff.1 (Nat.le_zero.1 enough)
      refine ⟨there, [], named, rfl, rfl, ?_⟩
      rw [atEnd]
      exact ends_nil _ _
  | succ left induction =>
      rw [chain_from_succ]
      cases found : before.ahead.head?.bind (·.chainOp? level) with
      | none => exact ⟨there, [], named, rfl, rfl, ends.at_rank found⟩
      | some op =>
          obtain ⟨lexeme, first, isOp⟩ := Option.bind_eq_some_iff.1 found
          obtain ⟨behind, starts⟩ := List.head?_eq_some_iff.1 first
          obtain ⟨isOperator, known⟩ := known_of_chain_op isOp
          have next : before.advance.ahead = behind := by
            rw [Cursor.advance, starts]
            rfl
          rw [starts] at enough ⊢
          refine Paced.step (step_operator isOperator known named depth) ?_
          rw [← next]
          refine (keeps before.advance readable.advance).bind ?_
          intro rhs after last _ isSuffix ends
          have shorter := isSuffix.length_le
          rw [next] at shorter
          exact induction (readable.advance.suffix isSuffix) rfl
            (Nat.le_trans shorter (Nat.le_of_succ_le_succ enough)) ends

theorem chain_keeps (keeps : Keeps passage limit (level.rank + 1) ⟨.operand, depth⟩ operand) :
    Keeps passage limit level.rank ⟨.operand, depth⟩ (chain level operand) := by
  intro before readable
  refine (keeps before readable).bind fun first after named there isSuffix ends => ?_
  exact chain_from_paced keeps (readable.suffix isSuffix) there (Nat.le_refl _) ends

end

section

variable {inner : Option (Parse (Expr α))}

/-- What stands in parentheses keeps pace with one parenthesis more, unless there is none
left to be opened. -/
def InnerKeeps (passage : Passage) (limit depth : Nat) : Option (Parse (Expr α)) → Prop
  | none => depth = limit
  | some parser => depth < limit ∧ Keeps passage limit 0 ⟨.operand, depth + 1⟩ parser

/-- The parenthesis is blamed that opens one level too many. -/
theorem group_paced (ended : passage.stop.isEnd = true)
    (keeps : InnerKeeps passage limit p.depth inner) {before : Cursor} {paren : Lexeme}
    {rest : List Lexeme} (starts : before.ahead = paren :: rest) (opens : paren.kind = .opening)
    (begins : p.expects = .operand ∨ p.expects = .factor ∨ p.expects = .operator true)
    (readable : AllReadable α before) :
    Paced passage limit 3 p p.depth before.ahead (group passage inner paren before.advance) := by
  rw [starts]
  cases inner with
  | none =>
      have full : p.depth = limit := keeps
      refine ⟨[], paren, rest ++ [passage.stop], _, p, rfl, rfl, rfl, rfl, opens, full, ?_⟩
      exact ⟨_, step_opening opens begins (Nat.lt_succ_of_le (Nat.le_of_eq full))⟩
  | some parser =>
      obtain ⟨low, keeps⟩ := keeps
      rw [group, modify_bind]
      have opened : AllReadable α before.advance.opened := readable.advance
      have inside := keeps before.advance.opened opened
      rw [show before.advance.opened.ahead = rest from advance_ahead starts] at inside
      refine Paced.step (step_opening opens begins low) (inside.bind ?_)
      intro root after named there _ ends
      exact closing_paced ended there ends

theorem factor_paced (ended : passage.stop.isEnd = true)
    (keeps : InnerKeeps passage limit p.depth inner) {before : Cursor}
    (begins : p.expects = .factor ∨
      p.expects = .operand ∧ before.ahead.head?.bind (·.sign?) = none)
    (readable : AllReadable α before) :
    Paced passage limit 3 p p.depth before.ahead (factor passage inner before) := by
  have isEnd : passage.stop.kind = .endMarker := eq_of_beq ended
  have entered : p.expects = .operand ∨ p.expects = .factor := begins.symm.imp_left And.left
  rw [factor, get_bind]
  cases starts : before.ahead with
  | nil =>
      refine ⟨[], passage.stop, [], .unexpectedEnd, p, rfl, rfl, rfl, step_none_of_begun ?_ ?_ ?_ ?_⟩
      · refine begins.imp_right fun operand => ⟨operand.1, ?_⟩
        simp [Lexeme.sign?, isEnd]
      all_goals simp [isEnd]
  | cons lexeme rest =>
      have isReadable : Readable α lexeme := readable lexeme (by simp [starts])
      have begins : p.expects = .factor ∨ p.expects = .operand ∧ lexeme.sign? = none := by
        simpa [starts] using begins
      cases kind : lexeme.kind with
      | opening =>
          simp only [kind, modify_bind]
          rw [← starts]
          exact group_paced ended keeps starts kind (entered.imp_right .inl) readable
      | identifier =>
          have named := isReadable.2 kind
          -- a name alone, in front of what is no parenthesis
          have alone (notCall : ∀ paren ∈ rest.head?, paren.kind ≠ .opening) :
              Paced passage limit 3 p p.depth (lexeme :: rest)
                (built (Expr.makeVariable lexeme.text : Except Fault (Expr α)) before.advance) := by
            rw [built_ok.2 ⟨Expr.make_variable_ok.2 ⟨named, rfl⟩, rfl⟩]
            refine ⟨rfl, [lexeme], true, ?_, follow_step (step_name kind entered), ?_⟩
            · rw [advance_ahead starts]
              rfl
            · rw [advance_ahead starts]
              exact fun paren first => ⟨fun _ => notCall paren first,
                (ends_operand rest paren first).2⟩
          simp only [kind, modify_bind]
          cases rest with
          | nil => exact alone (by simp)
          | cons paren behind =>
              simp only [List.head?_cons]
              by_cases opens : paren.kind = .opening
              · rw [if_pos opens, modify_bind]
                have next : before.advance.ahead = paren :: behind := advance_ahead starts
                have inside := group_paced (p := ⟨.operator true, p.depth⟩) ended keeps next opens
                  (.inr (.inr rfl)) readable.advance
                rw [next] at inside
                refine Paced.step (step_name kind entered) (inside.bind ?_)
                intro arg after last there _ ends
                rw [built_ok.2 ⟨Expr.make_call_ok.2 ⟨named, there, rfl⟩, rfl⟩]
                exact ⟨rfl, [], last, rfl, rfl, ends⟩
              · rw [if_neg opens]
                exact alone (by simpa using opens)
      | number =>
          obtain ⟨value, read⟩ := isReadable.1 kind
          simp only [kind, modify_bind]
          rw [number_ok.2 ⟨⟨value, read, rfl⟩, rfl⟩]
          refine ⟨rfl, [lexeme], false, ?_, follow_step (step_number kind entered),
            ends_operand _⟩
          rw [advance_ahead starts]
          rfl
      | operator | closing | endMarker | other label =>
          simp only [kind]
          refine ⟨[], lexeme, rest ++ [passage.stop], .invalidSequence lexeme.text, p, rfl, rfl, rfl,
            step_none_of_begun begins ?_ ?_ ?_⟩
          all_goals simp [kind]

theorem term_keeps (ended : passage.stop.isEnd = true)
    (keeps : InnerKeeps passage limit depth inner) :
    Keeps passage limit 3 ⟨.operand, depth⟩ (term passage inner) := by
  intro before readable
  rw [term, get_bind]
  cases found : before.ahead.head?.bind (·.sign?) with
  | none => exact factor_paced ended keeps (.inr ⟨rfl, found⟩) readable
  | some op =>
      obtain ⟨lexeme, first, isSign⟩ := Option.bind_eq_some_iff.1 found
      obtain ⟨rest, starts⟩ := List.head?_eq_some_iff.1 first
      obtain ⟨isOperator, spelled, known⟩ := sign_some.1 isSign
      have isKnown : (SignOp.ofSymbol lexeme.text).isKnown = true := by
        rw [spelled, SignOp.of_symbol_symbol known]
        exact known
      have inside := factor_paced (p := ⟨.factor, depth⟩) ended keeps (.inl rfl) readable.advance
      rw [advance_ahead starts] at inside
      simp only [modify_bind]
      rw [starts]
      refine Paced.step (step_sign isOperator isKnown depth) (inside.bind ?_)
      intro operand after named _ _ ends
      exact ⟨rfl, [], named, rfl, rfl, ends⟩

theorem levels_keeps {term : Parse (Expr α)} (keeps : Keeps passage limit 3 ⟨.operand, depth⟩ term) :
    Keeps passage limit 0 ⟨.operand, depth⟩ (levels term) := by
  have power : Keeps passage limit 2 ⟨.operand, depth⟩ (chain .power term) := chain_keeps keeps
  have product : Keeps passage limit 1 ⟨.operand, depth⟩ (chain .product (chain .power term)) :=
    chain_keeps power
  exact chain_keeps product

theorem expression_keeps (ended : passage.stop.isEnd = true) (room depth : Nat) :
    Keeps passage (depth + room) 0 ⟨.operand, depth⟩ (expression passage room : Parse (Expr α)) := by
  induction room generalizing depth with
  | zero =>
      have none : InnerKeeps passage depth depth (none : Option (Parse (Expr α))) := rfl
      exact levels_keeps (term_keeps ended none)
  | succ room induction =>
      have some : InnerKeeps passage (depth + (room + 1)) depth
          (some (expression passage room : Parse (Expr α))) := by
        refine ⟨Nat.lt_add_of_pos_right (Nat.succ_pos _), ?_⟩
        have inside := induction (depth + 1)
        rwa [show depth + 1 + room = depth + (room + 1) by omega] at inside
      exact levels_keeps (term_keeps ended some)

theorem run_of_ok {cursor after : Cursor} {tree : Expr α}
    (done : whole passage cursor = .ok tree after) : (run passage cursor).1 = .ok tree := by
  unfold run EStateM.run
  rw [done]

theorem run_of_error {cursor after : Cursor} {fault : Fault}
    (failed : (whole passage : Parse (Expr α)) cursor = .error fault after) :
    (run passage cursor).1 = (.error fault : Except Fault (Expr α)) := by
  unfold run EStateM.run
  rw [failed]

/-- A whole passage is refused at the first lexeme that cannot be taken, or else it is a
sentence, which only its depth can make unacceptable. -/
theorem whole_paced (ended : passage.stop.isEnd = true) {lexemes : List Lexeme}
    (readable : ∀ lexeme ∈ lexemes, Readable α lexeme)
    (inFront : ∀ lexeme ∈ lexemes, lexeme.kind ≠ .endMarker) :
    (∃ fault, (run passage ⟨lexemes, 0, 0⟩).1 = (.error fault : Except Fault (Expr α)) ∧
      Refuses passage nestingLimit start lexemes fault) ∨
    (∃ last, start.follow nestingLimit (lexemes ++ [passage.stop]) = some last) ∧
      ((∃ tree : Expr α, (run passage ⟨lexemes, 0, 0⟩).1 = .ok tree) ∨
        (run passage ⟨lexemes, 0, 0⟩).1 = (.error (passage.fault passage.stop
          (.treeTooDeep depthLimit)) : Except Fault (Expr α))) := by
  have isEnd : passage.stop.kind = .endMarker := eq_of_beq ended
  have keeps : Keeps passage nestingLimit 0 start
      (expression passage nestingLimit : Parse (Expr α)) := by
    have keeps := expression_keeps (α := α) ended nestingLimit 0
    rwa [Nat.zero_add] at keeps
  have paced := keeps ⟨lexemes, 0, 0⟩ readable
  cases outcome : (expression passage nestingLimit : Parse (Expr α)) ⟨lexemes, 0, 0⟩ with
  | error fault after =>
      rw [outcome] at paced
      left
      have failed : (whole passage : Parse (Expr α)) ⟨lexemes, 0, 0⟩ = .error fault after := by
        rw [whole, get_bind]
        exact bind_error_of_error outcome
      exact ⟨fault, run_of_error failed, paced⟩
  | ok root after =>
      rw [outcome] at paced
      obtain ⟨-, read, named, split, done, ends⟩ := paced
      have split : lexemes = read ++ after.ahead := split
      cases ahead : after.ahead with
      | cons lexeme rest =>
          left
          have failed : (whole passage : Parse (Expr α)) ⟨lexemes, 0, 0⟩ =
              .error (passage.fault lexeme .extraLexeme) after.advance := by
            rw [whole, get_bind]
            refine (bind_ok_of_ok outcome).trans ?_
            rw [get_bind, ahead]
            rfl
          refine ⟨_, run_of_error failed, read, lexeme, rest ++ [passage.stop], .extraLexeme, _, ?_,
            done, rfl, ?_⟩
          · rw [split, ahead, List.append_assoc]
            rfl
          · rw [ahead] at ends
            have notEnd := inFront lexeme (by simp [split, ahead])
            exact step_none_of_ends ends (fun _ => rfl) (fun same => absurd same notEnd)
      | nil =>
          right
          rw [ahead, List.append_nil] at split
          refine ⟨⟨⟨.nothing, 0⟩, ?_⟩, ?_⟩
          · rw [split]
            exact (follow_behind done).trans (follow_step (step_end isEnd named))
          · by_cases deep : depthLimit < root.depth
            · right
              have failed : (whole passage : Parse (Expr α)) ⟨lexemes, 0, 0⟩ =
                  .error (passage.fault passage.stop (.treeTooDeep depthLimit)) after := by
                rw [whole, get_bind]
                refine (bind_ok_of_ok outcome).trans ?_
                rw [get_bind, ahead]
                simp only [if_pos deep]
                rfl
              exact run_of_error failed
            · left
              have shallow := Nat.le_of_not_lt deep
              exact ⟨root, run_of_ok (whole_ok.2 ⟨outcome, ahead, shallow⟩)⟩

end

end Fluxion.Grammar
