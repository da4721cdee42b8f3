import Fluxion.Proofs.Grammar.Complaints

/-!
Where a parse leaves its cursor. A part of the parser moves the cursor as the automaton moves
over the lexemes that are read, and keeps count of the parentheses that the automaton has
open. Where it fails, with whatever fault, the cursor stands behind what could be taken or
behind one more lexeme, which could not. Each part of the parser is shown to do so from what
it is made of; nothing is asked of the texts of numbers and names.
-/

namespace Fluxion.Grammar

open Outcome Progress

/-- The cursor goes over these lexemes as the automaton does. -/
structure Goes (limit : Nat) (p q : Progress) (read : List Lexeme) (before after : Cursor) :
    Prop where
  ahead : before.ahead = read ++ after.ahead
  position : after.position = before.position + read.length
  way : p.follow limit read = some q
  nesting : after.nesting + p.depth = before.nesting + q.depth

/-- Where a failure leaves the cursor: behind what was taken, or behind one more lexeme, which
may not stand there. -/
def Halts (limit : Nat) (p : Progress) (before after : Cursor) : Prop :=
  ∃ q taken between, Goes limit p q taken before between ∧
    (after = between ∨ ∃ lexeme rest, between.ahead = lexeme :: rest ∧
      (∀ bound, q.step bound lexeme = none) ∧ after = between.advance)

variable {α : Type}

/-- A tree is made of what leads behind an operand, or the failure leaves the cursor in order. -/
def Moves (limit rank : Nat) (p : Progress) (depth : Nat) (before : Cursor) :
    EStateM.Result Fault Cursor (Expr α) → Prop
  | .ok _ after => ∃ read named, Goes limit p ⟨.operator named, depth⟩ read before after ∧
      Ends rank named after.ahead
  | .error _ after => Halts limit p before after

def Steady (limit rank : Nat) (p : Progress) (parser : Parse (Expr α)) : Prop :=
  ∀ before, Moves limit rank p p.depth before (parser before)

variable {passage : Passage} {limit rank depth : Nat} {p q : Progress}
  {before between after : Cursor} {lexeme : Lexeme} {rest : List Lexeme}

theorem Goes.refl (limit : Nat) (p : Progress) (cursor : Cursor) : Goes limit p p [] cursor cursor :=
  ⟨rfl, rfl, rfl, rfl⟩

theorem Goes.trans {r : Progress} {read more : List Lexeme} (first : Goes limit p q read before between)
    (second : Goes limit q r more between after) : Goes limit p r (read ++ more) before after where
  ahead := by rw [first.ahead, second.ahead, List.append_assoc]
  position := by rw [second.position, first.position, List.length_append, Nat.add_assoc]
  way := by rw [follow_behind first.way, second.way]
  nesting := by
    have left := first.nesting
    have right := second.nesting
    omega

theorem goes_over (starts : before.ahead = lexeme :: rest) (taken : p.step limit lexeme = some q)
    (level : q.depth = p.depth) : Goes limit p q [lexeme] before before.advance where
  ahead := by rw [starts, advance_ahead starts, List.singleton_append]
  position := rfl
  way := follow_step taken
  nesting := by rw [level]; rfl

theorem goes_opening (starts : before.ahead = lexeme :: rest) (opens : lexeme.kind = .opening)
    (begins : p.expects = .operand ∨ p.expects = .factor ∨ p.expects = .operator true)
    (low : p.depth < limit) :
    Goes limit p ⟨.operand, p.depth + 1⟩ [lexeme] before before.advance.opened where
  ahead := by
    show before.ahead = [lexeme] ++ before.advance.ahead
    rw [starts, advance_ahead starts, List.singleton_append]
  position := rfl
  way := follow_step (step_opening opens begins low)
  nesting := by
    show before.nesting + 1 + p.depth = before.nesting + (p.depth + 1)
    omega

theorem goes_closing (starts : before.ahead = lexeme :: rest) (closes : lexeme.kind = .closing)
    (named : Bool) (isOpen : 0 < before.nesting) :
    Goes limit ⟨.operator named, depth + 1⟩ ⟨.operator false, depth⟩ [lexeme] before
      before.advance.closed where
  ahead := by
    show before.ahead = [lexeme] ++ before.advance.ahead
    rw [starts, advance_ahead starts, List.singleton_append]
  position := rfl
  way := follow_step (step_closing closes named depth)
  nesting := by
    show before.nesting - 1 + (depth + 1) = before.nesting + depth
    omega

theorem halts_here (limit : Nat) (p : Progress) (cursor : Cursor) : Halts limit p cursor cursor :=
  ⟨p, [], cursor, .refl limit p cursor, .inl rfl⟩

theorem halts_over (starts : before.ahead = lexeme :: rest)
    (stuck : ∀ bound, p.step bound lexeme = none) : Halts limit p before before.advance :=
  ⟨p, [], before, .refl limit p before, .inr ⟨lexeme, rest, starts, stuck, rfl⟩⟩

theorem Goes.halts {read : List Lexeme} (goes : Goes limit p q read before between)
    (halts : Halts limit q between after) : Halts limit p before after := by
  obtain ⟨last, taken, place, reaches, ends⟩ := halts
  exact ⟨last, read ++ taken, place, goes.trans reaches, ends⟩

theorem Goes.moves {read : List Lexeme} {outcome : EStateM.Result Fault Cursor (Expr α)}
    (goes : Goes limit p q read before between) (moves : Moves limit rank q depth between outcome) :
    Moves limit rank p depth before outcome := by
  cases outcome with
  | error fault after => exact goes.halts moves
  | ok tree after =>
      obtain ⟨more, named, reaches, ends⟩ := moves
      exact ⟨read ++ more, named, goes.trans reaches, ends⟩

theorem Moves.bind {parser : Parse (Expr α)} {next : Expr α → Parse (Expr α)} {place : Cursor}
    {rank' depth' : Nat} (moves : Moves limit rank p depth before (parser place))
    (continues : ∀ tree after named read, Goes limit p ⟨.operator named, depth⟩ read before after →
      Ends rank named after.ahead →
      Moves limit rank' ⟨.operator named, depth⟩ depth' after (next tree after)) :
    Moves limit rank' p depth' before ((parser >>= next) place) := by
  cases outcome : parser place with
  | error fault after =>
      rw [bind_error_of_error outcome]
      rw [outcome] at moves
      exact moves
  | ok tree between =>
      rw [bind_ok_of_ok outcome]
      rw [outcome] at moves
      obtain ⟨read, named, goes, ends⟩ := moves
      exact goes.moves (continues tree between named read goes ends)

theorem built_moves (made : Except Fault (Expr α)) {named : Bool} (ends : Ends rank named before.ahead) :
    Moves limit rank ⟨.operator named, depth⟩ depth before (built made before) := by
  cases made with
  | ok tree => exact ⟨[], named, .refl _ _ _, ends⟩
  | error fault => exact halts_here _ _ _

theorem closing_moves {root : Expr α} {named : Bool} (ends : Ends 0 named before.ahead)
    (isOpen : 0 < before.nesting) :
    Moves limit 3 ⟨.operator named, depth + 1⟩ depth before
      ((expectClosing passage >>= fun _ => pure root) before) := by
  cases starts : before.ahead with
  | nil =>
      rw [bind_error_of_error (expect_closing_at_end starts)]
      exact halts_here _ _ _
  | cons lexeme behind =>
      by_cases closes : lexeme.kind = .closing
      · have done : expectClosing passage before = .ok () before.advance.closed :=
          expect_closing_ok.2 ⟨⟨lexeme, closes⟩, behind, starts, rfl⟩
        rw [bind_ok_of_ok done]
        exact ⟨[lexeme], false, goes_closing starts closes named isOpen, ends_operand _⟩
      · rw [bind_error_of_error (expect_closing_at_other starts closes)]
        rw [starts] at ends
        refine halts_over starts fun bound => ?_
        exact step_none_of_ends ends (fun same => absurd same closes)
          (fun _ => Nat.succ_ne_zero _) bound

section

variable {level : Level} {operand : Parse (Expr α)}

theorem chain_from_moves (steady : Steady limit (level.rank + 1) ⟨.operand, depth⟩ operand)
    {left : Nat} {root : Expr α} {named : Bool} (enough : before.ahead.length ≤ left)
    (ends : Ends (level.rank + 1) named before.ahead) :
    Moves limit level.rank ⟨.operator named, depth⟩ depth before
      (chainFrom level operand left root before) := by
  induction left generalizing root named before with
  | zero =>
      have atEnd : before.ahead = [] := List.length_eq_zero_iff.1 (Nat.le_zero.1 enough)
      refine ⟨[], named, .refl _ _ _, ?_⟩
      rw [atEnd]
      exact ends_nil _ _
  | succ left induction =>
      rw [chain_from_succ]
      cases found : before.ahead.head?.bind (·.chainOp? level) with
      | none => exact ⟨[], named, .refl _ _ _, ends.at_rank found⟩
      | some op =>
          obtain ⟨lexeme, first, isOp⟩ := Option.bind_eq_some_iff.1 found
          obtain ⟨behind, starts⟩ := List.head?_eq_some_iff.1 first
          obtain ⟨isOperator, known⟩ := known_of_chain_op isOp
          have step : Progress.step limit ⟨.operator named, depth⟩ lexeme = some ⟨.operand, depth⟩ :=
            step_operator isOperator known named depth
          refine (goes_over starts step rfl).moves ?_
          refine (steady before.advance).bind ?_
          intro rhs after last read goes ends
          have shorter := congrArg List.length goes.ahead
          rw [starts, List.length_cons] at enough
          rw [advance_ahead starts, List.length_append] at shorter
          exact induction (by omega) ends

theorem chain_steady (steady : Steady limit (level.rank + 1) ⟨.operand, depth⟩ operand) :
    Steady limit level.rank ⟨.operand, depth⟩ (chain level operand) := by
  intro before
  refine (steady before).bind fun first after named read goes ends => ?_
  exact chain_from_moves steady (Nat.le_refl _) ends

end

section

variable [Scalar α] {inner : Option (Parse (Expr α))}

omit [Scalar α] in
/-- What stands in parentheses is steady with one parenthesis more. The limit leaves room for
the parenthesis that is one too many. -/
def InnerSteady (limit depth : Nat) : Option (Parse (Expr α)) → Prop
  | none => True
  | some parser => Steady limit 0 ⟨.operand, depth + 1⟩ parser

omit [Scalar α] in
theorem group_moves (passage : Passage) (steady : InnerSteady limit p.depth inner)
    (low : p.depth < limit) (starts : before.ahead = lexeme :: rest)
    (opens : lexeme.kind = .opening)
    (begins : p.expects = .operand ∨ p.expects = .factor ∨ p.expects = .operator true) :
    Moves limit 3 p p.depth before (group passage inner lexeme before.advance) := by
  have entered := goes_opening starts opens begins low
  cases inner with
  | none => exact entered.halts (halts_here _ _ _)
  | some parser =>
      rw [group, modify_bind]
      refine entered.moves ((steady before.advance.opened).bind ?_)
      intro root after named read goes ends
      have nested : after.nesting + (p.depth + 1) = before.nesting + 1 + (p.depth + 1) := goes.nesting
      exact closing_moves ends (by omega)

theorem factor_moves (passage : Passage) (steady : InnerSteady limit p.depth inner)
    (low : p.depth < limit) (entered : p.expects = .operand ∨ p.expects = .factor) :
    Moves limit 3 p p.depth before (factor passage inner before) := by
  rw [factor, get_bind]
  cases starts : before.ahead with
  | nil => exact halts_here _ _ _
  | cons lexeme rest =>
      cases kind : lexeme.kind with
      | opening =>
          simp only [kind, modify_bind]
          exact group_moves passage steady low starts kind (entered.imp_right .inl)
      | identifier =>
          have named : Goes limit p ⟨.operator true, p.depth⟩ [lexeme] before before.advance :=
            goes_over starts (step_name kind entered) rfl
          -- a name alone, in front of what is no parenthesis
          have alone (notCall : ∀ paren ∈ rest.head?, paren.kind ≠ .opening) :
              Moves limit 3 p p.depth before
                (built (Expr.makeVariable lexeme.text : Except Fault (Expr α)) before.advance) := by
            refine named.moves (built_moves _ ?_)
            rw [advance_ahead starts]
            exact fun paren first => ⟨fun _ => notCall paren first, (ends_operand rest paren first).2⟩
          simp only [kind, modify_bind]
          cases rest with
          | nil => exact alone (by simp)
          | cons paren behind =>
              simp only [List.head?_cons]
              by_cases opens : paren.kind = .opening
              · rw [if_pos opens, modify_bind]
                refine named.moves (Moves.bind (group_moves (p := ⟨.operator true, p.depth⟩) passage
                  steady low (advance_ahead starts) opens (.inr (.inr rfl))) ?_)
                intro arg after last read _ ends
                exact built_moves _ ends
              · rw [if_neg opens]
                exact alone (by simpa using opens)
      | number =>
          have read : Goes limit p ⟨.operator false, p.depth⟩ [lexeme] before before.advance :=
            goes_over starts (step_number kind entered) rfl
          simp only [kind, modify_bind]
          refine read.moves ?_
          unfold number
          cases (Scalar.read? lexeme.text : Option α) with
          | none => exact halts_here _ _ _
          | some value => exact ⟨[], false, .refl _ _ _, ends_operand _⟩
      | operator | closing | endMarker | other label =>
          simp only [kind]
          exact halts_here _ _ _

theorem term_steady (passage : Passage) (steady : InnerSteady limit depth inner)
    (low : depth < limit) : Steady limit 3 ⟨.operand, depth⟩ (term passage inner) := by
  intro before
  rw [term, get_bind]
  cases found : before.ahead.head?.bind (·.sign?) with
  | none => exact factor_moves passage steady low (.inl rfl)
  | some op =>
      obtain ⟨lexeme, first, isSign⟩ := Option.bind_eq_some_iff.1 found
      obtain ⟨rest, starts⟩ := List.head?_eq_some_iff.1 first
      obtain ⟨isOperator, spelled, known⟩ := sign_some.1 isSign
      have isKnown : (SignOp.ofSymbol lexeme.text).isKnown = true := by
        rw [spelled, SignOp.of_symbol_symbol known]
        exact known
      have signed : Goes limit ⟨.operand, depth⟩ ⟨.factor, depth⟩ [lexeme] before before.advance :=
        goes_over starts (step_sign isOperator isKnown depth) rfl
      simp only [modify_bind]
      refine signed.moves (Moves.bind (factor_moves (p := ⟨.factor, depth⟩) passage steady low
        (.inr rfl)) ?_)
      intro operand after named read _ ends
      exact ⟨[], named, .refl _ _ _, ends⟩

omit [Scalar α] in
theorem levels_steady {term : Parse (Expr α)} (steady : Steady limit 3 ⟨.operand, depth⟩ term) :
    Steady limit 0 ⟨.operand, depth⟩ (levels term) := by
  have power : Steady limit 2 ⟨.operand, depth⟩ (chain .power term) := chain_steady steady
  have product : Steady limit 1 ⟨.operand, depth⟩ (chain .product (chain .power term)) :=
    chain_steady power
  exact chain_steady product

theorem expression_steady (passage : Passage) {room depth : Nat} (low : depth + room < limit) :
    Steady limit 0 ⟨.operand, depth⟩ (expression passage room : Parse (Expr α)) := by
  induction room generalizing depth with
  | zero =>
      have none : InnerSteady limit depth (none : Option (Parse (Expr α))) := trivial
      exact levels_steady (term_steady passage none low)
  | succ room induction =>
      have some : InnerSteady limit depth (some (expression passage room : Parse (Expr α))) :=
        induction (by omega)
      exact levels_steady (term_steady passage some (by omega))

end

end Fluxion.Grammar
