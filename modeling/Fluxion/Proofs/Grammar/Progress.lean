import Fluxion.Proofs.Grammar.Phrase

/-!
How far a stretch of a sentence has come. What may stand next depends only on the kind of the
last lexeme and on how many parentheses are open, so an automaton with a counter goes along
with every derivation. How many parentheses may be open at a time is a parameter, which
nothing but an opening parenthesis asks for. Main statements: a derivation is a way through
the automaton, and where a way ends is found again at any larger parameter.
-/

namespace Fluxion.Grammar

inductive Expects
  | operand
  /-- Behind a sign no second sign may stand. -/
  | factor
  /-- Behind an operand; a parenthesis may open if the operand is a name so far. -/
  | operator (named : Bool)
  /-- Behind the end marker. -/
  | nothing

structure Progress where
  expects : Expects
  depth : Nat

namespace Progress

def start : Progress := ⟨.operand, 0⟩

def opened (limit : Nat) (p : Progress) : Option Progress :=
  if p.depth < limit then some ⟨.operand, p.depth + 1⟩ else none

def begun (limit : Nat) (p : Progress) (lexeme : Lexeme) : Option Progress :=
  match lexeme.kind with
  | .opening => p.opened limit
  | .identifier => some ⟨.operator true, p.depth⟩
  | .number => some ⟨.operator false, p.depth⟩
  | _ => none

def continued (limit : Nat) (p : Progress) (named : Bool) (lexeme : Lexeme) : Option Progress :=
  match lexeme.kind with
  | .opening => if named then p.opened limit else none
  | .closing => if p.depth = 0 then none else some ⟨.operator false, p.depth - 1⟩
  | .operator =>
      if (BinaryOp.ofSymbol lexeme.text).isKnown then some ⟨.operand, p.depth⟩ else none
  | .endMarker => if p.depth = 0 then some ⟨.nothing, 0⟩ else none
  | _ => none

/-- Behind one more lexeme, if it may stand here while at most `limit` parentheses may be
open. -/
def step (limit : Nat) (p : Progress) (lexeme : Lexeme) : Option Progress :=
  match p.expects with
  | .operand =>
      if lexeme.kind = .operator then
        if (SignOp.ofSymbol lexeme.text).isKnown then some ⟨.factor, p.depth⟩ else none
      else p.begun limit lexeme
  | .factor => p.begun limit lexeme
  | .operator named => p.continued limit named lexeme
  | .nothing => none

def follow (limit : Nat) (p : Progress) (lexemes : List Lexeme) : Option Progress :=
  lexemes.foldlM (step limit) p

variable {limit : Nat} {p q : Progress} {lexeme : Lexeme} {lexemes : List Lexeme}

/-- Only an opening parenthesis asks for the limit, and what a lexeme does to the number of
open parentheses depends on its kind alone. -/
theorem step_cases (done : p.step limit lexeme = some q) :
    (lexeme.kind = .opening ∧ q.depth = p.depth + 1 ∧ p.depth < limit ∧
      ∀ bound, p.depth < bound → p.step bound lexeme = some q) ∨
    (lexeme.kind ≠ .opening ∧ (∀ bound, p.step bound lexeme = some q) ∧
      p.depth = q.depth + if lexeme.kind = .closing then 1 else 0) := by
  obtain ⟨expects, depth⟩ := p
  cases expects <;> cases kind : lexeme.kind <;>
    simp only [step, begun, continued, opened, kind, reduceCtorEq, if_true, if_false] at done ⊢ <;>
    grind

@[simp] theorem follow_nil : p.follow limit [] = some p := rfl

@[simp] theorem follow_cons :
    p.follow limit (lexeme :: lexemes) = (p.step limit lexeme).bind (·.follow limit lexemes) :=
  List.foldlM_cons

theorem follow_append (first second : List Lexeme) :
    p.follow limit (first ++ second) = (p.follow limit first).bind (·.follow limit second) :=
  List.foldlM_append

theorem follow_step (first : p.step limit lexeme = some q) :
    p.follow limit (lexeme :: lexemes) = q.follow limit lexemes := by
  rw [follow_cons, first, Option.bind_some]

theorem follow_behind {front : List Lexeme} (done : p.follow limit front = some q) :
    p.follow limit (front ++ lexemes) = q.follow limit lexemes := by
  rw [follow_append, done, Option.bind_some]

theorem step_mono {more : Nat} (done : p.step limit lexeme = some q) (le : limit ≤ more) :
    p.step more lexeme = some q := by
  rcases step_cases done with ⟨-, -, low, again⟩ | ⟨-, again, -⟩
  · exact again more (Nat.lt_of_lt_of_le low le)
  · exact again more

/-- The limit may as well be the depth that is reached. -/
theorem step_within {bound : Nat} (done : p.step limit lexeme = some q) (low : q.depth ≤ bound) :
    p.step bound lexeme = some q := by
  rcases step_cases done with ⟨-, deeper, -, again⟩ | ⟨-, again, -⟩
  · exact again bound (by omega)
  · exact again bound

theorem step_depth_le (done : p.step limit lexeme = some q) (low : p.depth ≤ limit) :
    q.depth ≤ limit := by
  rcases step_cases done with ⟨-, deeper, below, -⟩ | ⟨-, -, same⟩ <;> omega

theorem follow_mono {more : Nat} (done : p.follow limit lexemes = some q) (le : limit ≤ more) :
    p.follow more lexemes = some q := by
  induction lexemes generalizing p with
  | nil => exact done
  | cons lexeme rest induction =>
      rw [follow_cons, Option.bind_eq_some_iff] at done ⊢
      obtain ⟨between, first, behind⟩ := done
      exact ⟨between, step_mono first le, induction behind⟩

theorem follow_depth_le (done : p.follow limit lexemes = some q) (low : p.depth ≤ limit) :
    q.depth ≤ limit := by
  induction lexemes generalizing p with
  | nil =>
      cases done
      exact low
  | cons lexeme rest induction =>
      rw [follow_cons, Option.bind_eq_some_iff] at done
      obtain ⟨between, first, behind⟩ := done
      exact induction behind (step_depth_le first low)

theorem follow_front {front : List Lexeme} (done : p.follow limit lexemes = some q)
    (isFront : front <+: lexemes) : ∃ between, p.follow limit front = some between := by
  obtain ⟨behind, rfl⟩ := isFront
  rw [follow_append, Option.bind_eq_some_iff] at done
  obtain ⟨between, first, -⟩ := done
  exact ⟨between, first⟩

end Progress

/-- How many more parentheses are opened than closed. -/
def unclosed (lexemes : List Lexeme) : Int :=
  lexemes.countP (·.kind = .opening) - lexemes.countP (·.kind = .closing)

theorem unclosed_cons (lexeme : Lexeme) (lexemes : List Lexeme) :
    unclosed (lexeme :: lexemes) = unclosed [lexeme] + unclosed lexemes := by
  simp only [unclosed, List.countP_cons, List.countP_nil]
  omega

namespace Progress

variable {limit : Nat} {p q : Progress} {lexeme : Lexeme} {lexemes : List Lexeme}

theorem step_unclosed (done : p.step limit lexeme = some q) :
    (q.depth : Int) = p.depth + unclosed [lexeme] := by
  rcases step_cases done with ⟨opens, deeper, -, -⟩ | ⟨opensNot, -, same⟩
  · simp [unclosed, opens, deeper]
  · by_cases closes : lexeme.kind = .closing
    · have shallower : unclosed [lexeme] = -1 := by simp [unclosed, closes]
      rw [if_pos closes] at same
      omega
    · simp [unclosed, closes, opensNot, same]

theorem follow_unclosed (done : p.follow limit lexemes = some q) :
    (q.depth : Int) = p.depth + unclosed lexemes := by
  induction lexemes generalizing p with
  | nil =>
      cases done
      simp [unclosed]
  | cons lexeme rest induction =>
      rw [follow_cons, Option.bind_eq_some_iff] at done
      obtain ⟨between, first, behind⟩ := done
      rw [induction behind, step_unclosed first, unclosed_cons lexeme rest, Int.add_assoc]

theorem follow_within {bound : Nat} (done : p.follow limit lexemes = some q)
    (low : ∀ front, front <+: lexemes → p.depth + unclosed front ≤ bound) :
    p.follow bound lexemes = some q := by
  induction lexemes generalizing p with
  | nil => exact done
  | cons lexeme rest induction =>
      rw [follow_cons, Option.bind_eq_some_iff] at done ⊢
      obtain ⟨between, first, behind⟩ := done
      have reached := step_unclosed first
      have lowFirst := low [lexeme] (List.prefix_append [lexeme] rest)
      refine ⟨between, step_within first (by omega), induction behind fun front isFront => ?_⟩
      have lowFront := low (lexeme :: front) (List.cons_prefix_cons.2 ⟨rfl, isFront⟩)
      rw [unclosed_cons] at lowFront
      omega

theorem step_opening {paren : Lexeme} (opens : paren.kind = .opening)
    (begins : p.expects = .operand ∨ p.expects = .factor ∨ p.expects = .operator true)
    (low : p.depth < limit) : p.step limit paren = some ⟨.operand, p.depth + 1⟩ := by
  obtain ⟨expects, depth⟩ := p
  rcases begins with rfl | rfl | rfl <;> simpa [step, begun, continued, opened, opens] using low

theorem step_name {name : Lexeme} (named : name.kind = .identifier)
    (begins : p.expects = .operand ∨ p.expects = .factor) :
    p.step limit name = some ⟨.operator true, p.depth⟩ := by
  obtain ⟨expects, depth⟩ := p
  rcases begins with rfl | rfl <;> simp [step, begun, named]

theorem step_number {number : Lexeme} (isNumber : number.kind = .number)
    (begins : p.expects = .operand ∨ p.expects = .factor) :
    p.step limit number = some ⟨.operator false, p.depth⟩ := by
  obtain ⟨expects, depth⟩ := p
  rcases begins with rfl | rfl <;> simp [step, begun, isNumber]

theorem step_sign {sign : Lexeme} (isOperator : sign.kind = .operator)
    (known : (SignOp.ofSymbol sign.text).isKnown = true) (depth : Nat) :
    step limit ⟨.operand, depth⟩ sign = some ⟨.factor, depth⟩ := by
  simp [step, isOperator, known]

theorem step_operator {lexeme : Lexeme} (isOperator : lexeme.kind = .operator)
    (known : (BinaryOp.ofSymbol lexeme.text).isKnown = true) (named : Bool) (depth : Nat) :
    step limit ⟨.operator named, depth⟩ lexeme = some ⟨.operand, depth⟩ := by
  simp [step, continued, isOperator, known]

theorem step_closing {lexeme : Lexeme} (closes : lexeme.kind = .closing) (named : Bool)
    (depth : Nat) : step limit ⟨.operator named, depth + 1⟩ lexeme =
      some ⟨.operator false, depth⟩ := by
  simp [step, continued, closes]

theorem step_end {lexeme : Lexeme} (ends : lexeme.kind = .endMarker) (named : Bool) :
    step limit ⟨.operator named, 0⟩ lexeme = some ⟨.nothing, 0⟩ := by
  simp [step, continued, ends]

end Progress

open Progress

def Category.Entered : Category → Progress → Prop
  | .chain _, p | .term, p => p.expects = .operand
  | .factor, p => p.expects = .operand ∨ p.expects = .factor
  | .tail _, p => ∃ named, p.expects = .operator named

theorem entered_operand {level : Level} {p : Progress} (entered : p.expects = .operand) :
    (operandOf level).Entered p := by
  cases level <;> exact entered

/-- A derivation is a way through the automaton, and leads from the place of an operand or a
tail to a place behind one with as many parentheses open. -/
theorem follow_phrase {c : Category} (phrase : Phrase c) {limit : Nat} {p : Progress}
    (entered : c.Entered p) (low : p.depth + phrase.nesting ≤ limit) :
    ∃ named, p.follow limit phrase.yield = some ⟨.operator named, p.depth⟩ := by
  obtain ⟨expects, depth⟩ := p
  induction phrase generalizing expects depth with
  | @chain level first tail inFirst inTail =>
      simp only [Phrase.nesting] at low
      obtain ⟨between, doneFirst⟩ := inFirst expects depth (entered_operand entered)
        (show depth + first.nesting ≤ limit by omega)
      obtain ⟨named, doneTail⟩ := inTail (.operator between) depth ⟨between, rfl⟩
        (show depth + tail.nesting ≤ limit by omega)
      exact ⟨named, (follow_behind doneFirst).trans doneTail⟩
  | done level =>
      obtain ⟨named, rfl⟩ := entered
      exact ⟨named, rfl⟩
  | next op operand tail inOperand inTail =>
      obtain ⟨named, rfl⟩ := entered
      simp only [Phrase.nesting] at low
      have known : (BinaryOp.ofSymbol op.lexeme.val.text).isKnown = true := by
        rw [op.spelled, BinaryOp.of_symbol_symbol op.placed]
        exact BinaryOp.known_of_level op.placed
      obtain ⟨between, doneOperand⟩ := inOperand .operand depth (entered_operand rfl)
        (show depth + operand.nesting ≤ limit by omega)
      obtain ⟨last, doneTail⟩ := inTail (.operator between) depth ⟨between, rfl⟩
        (show depth + tail.nesting ≤ limit by omega)
      refine ⟨last, ?_⟩
      rw [Phrase.yield, follow_step (step_operator op.lexeme.property known named depth),
        follow_behind doneOperand, doneTail]
  | bare inner inInner => exact inInner expects depth (.inl entered) low
  | signed sign inner inInner =>
      obtain rfl : expects = .operand := entered
      have known : (SignOp.ofSymbol sign.lexeme.val.text).isKnown = true := by
        rw [sign.spelled, SignOp.of_symbol_symbol sign.known]
        exact sign.known
      obtain ⟨named, done⟩ := inInner .factor depth (.inr rfl) low
      refine ⟨named, ?_⟩
      rw [Phrase.yield, follow_step (step_sign sign.lexeme.property known depth), done]
  | group left inner right inInner =>
      simp only [Phrase.nesting] at low
      have begins : expects = .operand ∨ expects = .factor ∨ expects = .operator true :=
        entered.imp_right .inl
      obtain ⟨named, done⟩ := inInner .operand (depth + 1) rfl
        (show depth + 1 + inner.nesting ≤ limit by omega)
      have shallow : depth < limit := by omega
      refine ⟨false, ?_⟩
      rw [Phrase.yield, follow_step (step_opening left.property begins shallow),
        follow_behind done, follow_step (step_closing right.property named depth), follow_nil]
  | call name left inner right inInner =>
      simp only [Phrase.nesting] at low
      obtain ⟨named, done⟩ := inInner .operand (depth + 1) rfl
        (show depth + 1 + inner.nesting ≤ limit by omega)
      have shallow : depth < limit := by omega
      refine ⟨false, ?_⟩
      rw [Phrase.yield, follow_step (step_name name.property entered),
        follow_step (step_opening left.property (.inr (.inr rfl)) shallow),
        follow_behind done, follow_step (step_closing right.property named depth), follow_nil]
  | identifier lexeme =>
      exact ⟨true, follow_step (step_name lexeme.property entered)⟩
  | number lexeme =>
      exact ⟨false, follow_step (step_number lexeme.property entered)⟩

end Fluxion.Grammar
