import Fluxion.Proofs.Grammar.Phrase
import Fluxion.Proofs.Expr.Built

/-!
The parser reads the grammar. A parser reads a category within a number of further
parentheses if what it returns is the tree of a phrase that it has stepped over, and
if it returns the tree of every phrase that the lexemes ahead begin with and that
they do not continue. Each part of the parser is shown to read its category from
what it is made of, and the whole parser by induction on the parentheses left.
-/

namespace Fluxion.Grammar

open Outcome

/-- The way from one cursor to another over these lexemes. -/
structure Covers (lexemes : List Lexeme) (before after : Cursor) : Prop where
  ahead : before.ahead = lexemes ++ after.ahead
  position : after.position = before.position + lexemes.length
  nesting : after.nesting = before.nesting

theorem Covers.refl (cursor : Cursor) : Covers [] cursor cursor := ⟨rfl, rfl, rfl⟩

theorem Covers.eq_of_nil {before after : Cursor} (covers : Covers [] before after) :
    before = after := by
  obtain ⟨ahead, position, nesting⟩ := covers
  cases before
  cases after
  simp_all

theorem Covers.append {first second : List Lexeme} {before between after : Cursor}
    (left : Covers first before between) (right : Covers second between after) :
    Covers (first ++ second) before after where
  ahead := by rw [left.ahead, right.ahead, List.append_assoc]
  position := by rw [right.position, left.position, List.length_append, Nat.add_assoc]
  nesting := right.nesting.trans left.nesting

theorem Covers.split {first second : List Lexeme} {before after : Cursor}
    (covers : Covers (first ++ second) before after) :
    ∃ between, Covers first before between ∧ Covers second between after := by
  obtain ⟨ahead, position, nesting⟩ := covers
  rw [List.append_assoc] at ahead
  rw [List.length_append] at position
  exact ⟨⟨second ++ after.ahead, before.position + first.length, before.nesting⟩,
    ⟨ahead, rfl, rfl⟩, ⟨rfl, by rw [position, Nat.add_assoc], nesting⟩⟩

theorem covers_cons {lexeme : Lexeme} {rest : List Lexeme} {before after : Cursor} :
    Covers (lexeme :: rest) before after ↔
      (∃ behind, before.ahead = lexeme :: behind) ∧ Covers rest before.advance after := by
  constructor
  · rintro ⟨ahead, position, nesting⟩
    refine ⟨⟨_, ahead⟩, ⟨?_, ?_, nesting⟩⟩
    · rw [Cursor.advance, ahead]
      rfl
    · show after.position = before.position + 1 + rest.length
      rw [position, List.length_cons]
      omega
  · rintro ⟨⟨behind, starts⟩, ahead, position, nesting⟩
    refine ⟨?_, ?_, nesting⟩
    · rw [Cursor.advance, starts] at ahead
      rw [starts, List.cons_append, ← ahead]
      rfl
    · rw [position, List.length_cons]
      show before.position + 1 + rest.length = _
      omega

variable {α : Type} [Scalar α]

def Readable (α : Type) [Scalar α] (lexeme : Lexeme) : Prop :=
  (lexeme.kind = .number → ∃ value : α, Scalar.read? lexeme.text = some value) ∧
    (lexeme.kind = .identifier → lexeme.text ≠ "")

/-- The parser reads a category within this many further parentheses. -/
structure Reads (parser : Parse (Expr α)) (c : Category) (room : Nat) : Prop where
  sound {before after : Cursor} {tree : Expr α} : parser before = .ok tree after →
    ∃ phrase : Phrase c, phrase.nesting ≤ room ∧ phrase.tree = tree ∧
      Covers phrase.yield before after
  complete {before after : Cursor} {phrase : Phrase c} : phrase.nesting ≤ room →
    (∀ lexeme ∈ phrase.yield, Readable α lexeme) → Covers phrase.yield before after →
    Stops c after.ahead → parser before = .ok phrase.tree after

section

variable {level : Level} {operand : Parse (Expr α)} {room : Nat}

theorem chain_op_some {lexeme : Lexeme} {op : BinaryOp} :
    lexeme.chainOp? level = some op ↔
      lexeme.kind = .operator ∧ lexeme.text = op.symbol ∧ op.level? = some level := by
  unfold Lexeme.chainOp?
  simp only [Option.ite_none_right_eq_some, Option.some.injEq]
  constructor
  · rintro ⟨⟨isOperator, placed⟩, rfl⟩
    exact ⟨isOperator, (BinaryOp.symbol_of_symbol _).symm, placed⟩
  · rintro ⟨isOperator, spelled, placed⟩
    rw [spelled, BinaryOp.of_symbol_symbol placed]
    exact ⟨⟨isOperator, placed⟩, rfl⟩

theorem chain_op_of_operator (op : Operator level) :
    op.lexeme.val.chainOp? level = some op.op :=
  chain_op_some.2 ⟨op.lexeme.property, op.spelled, op.placed⟩

theorem chain_op_none {rest : List Lexeme} (stops : Stops (.tail level) rest) :
    rest.head?.bind (·.chainOp? level) = none := by
  cases rest with
  | nil => rfl
  | cons lexeme rest =>
      rw [stops_cons] at stops
      cases found : lexeme.chainOp? level with
      | none => exact found
      | some op =>
          obtain ⟨isOperator, spelled, placed⟩ := chain_op_some.1 found
          exact absurd (.inr ⟨op, level, isOperator, spelled, placed, Nat.le_refl _⟩) stops

omit [Scalar α] in
/-- One turn of the loop over a chain. -/
theorem chain_from_succ (left : Nat) (root : Expr α) (cursor : Cursor) :
    chainFrom level operand (left + 1) root cursor =
      match cursor.ahead.head?.bind (·.chainOp? level) with
      | none => .ok root cursor
      | some op => (operand >>= fun rhs => chainFrom level operand left (.binary op root rhs))
          cursor.advance := by
  rw [chainFrom, get_bind]
  cases cursor.ahead.head?.bind (·.chainOp? level) <;> rfl

theorem chain_from_sound (reads : Reads operand (operandOf level) room) {left : Nat}
    {root tree : Expr α} {before after : Cursor}
    (done : chainFrom level operand left root before = .ok tree after) :
    ∃ phrase : Phrase (.tail level), phrase.nesting ≤ room ∧ phrase.extend root = tree ∧
      Covers phrase.yield before after := by
  induction left generalizing root before with
  | zero =>
      obtain ⟨rfl, rfl⟩ := pure_ok_iff.1 done
      exact ⟨.done level, Nat.zero_le _, rfl, .refl _⟩
  | succ left induction =>
      rw [chain_from_succ] at done
      cases found : before.ahead.head?.bind (·.chainOp? level) with
      | none =>
          rw [found] at done
          cases done
          exact ⟨.done level, Nat.zero_le _, rfl, .refl _⟩
      | some op =>
          rw [found] at done
          obtain ⟨rhs, between, doneOperand, done⟩ := bind_ok_iff.1 done
          obtain ⟨first, low, rfl, covers⟩ := reads.sound doneOperand
          obtain ⟨tail, lowTail, grown, coversTail⟩ := induction done
          obtain ⟨lexeme, starts, isOp⟩ := Option.bind_eq_some_iff.1 found
          obtain ⟨isOperator, spelled, placed⟩ := chain_op_some.1 isOp
          let operator : Operator level := ⟨⟨lexeme, isOperator⟩, op, spelled, placed⟩
          refine ⟨.next operator first tail, Nat.max_le.2 ⟨low, lowTail⟩, grown, ?_⟩
          refine covers_cons.2 ⟨?_, covers.append coversTail⟩
          cases ahead : before.ahead with
          | nil => simp [ahead] at starts
          | cons head behind =>
              rw [ahead] at starts
              cases starts
              exact ⟨behind, rfl⟩

theorem chain_from_complete (reads : Reads operand (operandOf level) room) {left : Nat}
    {root : Expr α} {before after : Cursor} {phrase : Phrase (.tail level)}
    (low : phrase.nesting ≤ room) (readable : ∀ lexeme ∈ phrase.yield, Readable α lexeme)
    (covers : Covers phrase.yield before after) (stops : Stops (.tail level) after.ahead)
    (enough : phrase.yield.length ≤ left) :
    chainFrom level operand left root before = .ok (phrase.extend root) after := by
  induction left generalizing root before phrase with
  | zero =>
      cases phrase with
      | done =>
          rw [covers.eq_of_nil]
          rfl
      | next op first tail => simp [Phrase.yield] at enough
  | succ left induction =>
      rw [chain_from_succ]
      cases phrase with
      | done =>
          rw [covers.eq_of_nil, chain_op_none stops]
          rfl
      | next op first tail =>
          obtain ⟨⟨behind, starts⟩, covers⟩ := covers_cons.1 covers
          obtain ⟨between, coversFirst, coversTail⟩ := covers.split
          have found : before.ahead.head?.bind (·.chainOp? level) = some op.op := by
            rw [starts]
            exact chain_op_of_operator op
          have ends : Stops (operandOf level) between.ahead := by
            rw [coversTail.ahead]
            exact tail.stops_behind stops
          have lowFirst := (Nat.max_le.1 low).1
          have doneFirst := reads.complete lowFirst
            (fun lexeme inFirst => readable lexeme (by simp [Phrase.yield, inFirst])) coversFirst ends
          have shorter : tail.yield.length ≤ left := by
            simp only [Phrase.yield, List.length_cons, List.length_append] at enough
            omega
          rw [found]
          show (operand >>= _) before.advance = _
          rw [bind_ok_of_ok doneFirst]
          exact induction (Nat.max_le.1 low).2
            (fun lexeme inTail => readable lexeme (by simp [Phrase.yield, inTail])) coversTail
            shorter

theorem reads_chain (reads : Reads operand (operandOf level) room) :
    Reads (chain level operand) (.chain level) room where
  sound done := by
    obtain ⟨root, between, doneFirst, done⟩ := bind_ok_iff.1 done
    obtain ⟨first, low, rfl, coversFirst⟩ := reads.sound doneFirst
    obtain ⟨tail, lowTail, grown, coversTail⟩ := chain_from_sound reads done
    exact ⟨.chain first tail, Nat.max_le.2 ⟨low, lowTail⟩, grown, coversFirst.append coversTail⟩
  complete {before after phrase} low readable covers stops := by
    cases phrase with
    | chain first tail =>
        obtain ⟨between, coversFirst, coversTail⟩ := covers.split
        have ends : Stops (operandOf level) between.ahead := by
          rw [coversTail.ahead]
          exact tail.stops_behind stops
        have doneFirst := reads.complete (Nat.max_le.1 low).1
          (fun lexeme inFirst => readable lexeme (by simp [Phrase.yield, inFirst])) coversFirst ends
        have enough : tail.yield.length ≤ between.ahead.length := by
          rw [coversTail.ahead, List.length_append]
          exact Nat.le_add_right _ _
        rw [chain, bind_ok_of_ok doneFirst]
        exact chain_from_complete reads (Nat.max_le.1 low).2
          (fun lexeme inTail => readable lexeme (by simp [Phrase.yield, inTail])) coversTail
          stops enough

end

section

variable {P : Expr α → Prop}

/-- What a lexeme stands for as a leaf has the property, and a call by its name keeps it. -/
def Supports (P : Expr α → Prop) (lexeme : Lexeme) : Prop :=
  (lexeme.kind = .number → P (Phrase.numeral lexeme.text)) ∧
    (lexeme.kind = .identifier →
      P (.var lexeme.text) ∧ ∀ arg, P arg → P (.call lexeme.text arg))

/-- A property of the leaves that every node keeps is one of the whole tree. -/
theorem extend_property
    (binary : ∀ op lhs rhs, op.isKnown = true → P lhs → P rhs → P (.binary op lhs rhs))
    (signed : ∀ op operand, op.isKnown = true → P operand → P (.signed op operand))
    {c : Category} {phrase : Phrase c} (supports : ∀ lexeme ∈ phrase.yield, Supports P lexeme)
    {left : Expr α} (there : ∀ level, c = .tail level → P left) : P (phrase.extend left) := by
  induction phrase generalizing left with
  | @chain level first tail inFirst inTail =>
      refine inTail (fun lexeme inside => supports lexeme (by simp [Phrase.yield, inside]))
        fun _ _ => ?_
      refine inFirst (fun lexeme inside => supports lexeme (by simp [Phrase.yield, inside])) ?_
      intro inner same
      cases level <;> cases same
  | done level => exact there level rfl
  | @next level op operand tail inOperand inTail =>
      refine inTail (fun lexeme inside => supports lexeme (by simp [Phrase.yield, inside]))
        fun _ _ => binary _ _ _ (BinaryOp.known_of_level op.placed) (there level rfl) ?_
      refine inOperand (fun lexeme inside => supports lexeme (by simp [Phrase.yield, inside])) ?_
      intro inner same
      cases level <;> cases same
  | bare inner inInner =>
      refine inInner supports ?_
      intro level same
      cases same
  | signed sign inner inInner =>
      refine signed _ _ sign.known (inInner (fun lexeme inside => supports lexeme ?_) ?_)
      · simp [Phrase.yield, inside]
      · intro level same
        cases same
  | group left inner right inInner =>
      refine inInner (fun lexeme inside => supports lexeme (by simp [Phrase.yield, inside])) ?_
      intro level same
      cases same
  | call name left inner right inInner =>
      have called := ((supports name.val (by simp [Phrase.yield])).2 name.property).2
      refine called _ (inInner (fun lexeme inside => supports lexeme ?_) ?_)
      · simp [Phrase.yield, inside]
      · intro level same
        cases same
  | identifier lexeme => exact ((supports lexeme.val (by simp [Phrase.yield])).2 lexeme.property).1
  | number lexeme => exact (supports lexeme.val (by simp [Phrase.yield])).1 lexeme.property

theorem tree_property {phrase : Phrase (.chain .sum)}
    (binary : ∀ op lhs rhs, op.isKnown = true → P lhs → P rhs → P (.binary op lhs rhs))
    (signed : ∀ op operand, op.isKnown = true → P operand → P (.signed op operand))
    (supports : ∀ lexeme ∈ phrase.yield, Supports P lexeme) : P phrase.tree := by
  refine extend_property binary signed supports ?_
  intro level same
  cases same

theorem tree_not_missing {phrase : Phrase (.chain .sum)}
    (readable : ∀ lexeme ∈ phrase.yield, Readable α lexeme) :
    (phrase.tree : Expr α).isMissing = false := by
  refine tree_property (P := fun tree => tree.isMissing = false) (fun _ _ _ _ _ _ => rfl)
    (fun _ _ _ _ => rfl) fun lexeme inside => ⟨?_, ?_⟩
  · intro number
    obtain ⟨value, read⟩ := (readable lexeme inside).1 number
    rw [Phrase.numeral, read]
    rfl
  · exact fun _ => ⟨rfl, fun _ _ => rfl⟩

end

section

variable {passage : Passage} {inner : Option (Parse (Expr α))} {room : Nat}

/-- What stands in parentheses is read within one parenthesis less, if there is one. -/
def InnerReads (inner : Option (Parse (Expr α))) (room : Nat) : Prop :=
  match inner with
  | none => room = 0
  | some parser => ∃ less, room = less + 1 ∧ Reads parser (.chain .sum) less

theorem expect_closing_ok {before after : Cursor} :
    expectClosing passage before = .ok () after ↔
      ∃ right : Token .closing, ∃ behind, before.ahead = right.val :: behind ∧
        before.advance.closed = after := by
  rw [expectClosing, get_bind]
  cases before.ahead with
  | nil =>
      constructor
      · intro done
        cases done
      · rintro ⟨_, _, ⟨⟩, _⟩
  | cons lexeme behind =>
      simp only [modify_bind]
      by_cases closes : lexeme.kind = .closing
      · rw [if_pos closes]
        constructor
        · intro done
          cases done
          exact ⟨⟨lexeme, closes⟩, behind, rfl, rfl⟩
        · rintro ⟨right, _, same, rfl⟩
          rfl
      · rw [if_neg closes]
        constructor
        · intro done
          cases done
        · rintro ⟨right, _, same, -⟩
          cases same
          exact absurd right.property closes

theorem covers_group {phrase : Phrase (.chain .sum)} {right : Token .closing}
    {before between : Cursor} {behind : List Lexeme}
    (covers : Covers phrase.yield before.opened between)
    (closes : between.ahead = right.val :: behind) :
    Covers (phrase.yield ++ [right.val]) before between.advance.closed := by
  have opened : Covers phrase.yield before { between with nesting := between.nesting - 1 } :=
    ⟨covers.ahead, covers.position, by rw [covers.nesting]; rfl⟩
  exact opened.append (covers_cons.2 ⟨⟨behind, closes⟩, .refl _⟩)

theorem group_sound (reads : InnerReads inner room) {paren : Lexeme} {tree : Expr α}
    {before after : Cursor} (done : group passage inner paren before = .ok tree after) :
    ∃ phrase : Phrase (.chain .sum), ∃ right : Token .closing, phrase.nesting + 1 ≤ room ∧
      phrase.tree = tree ∧ Covers (phrase.yield ++ [right.val]) before after := by
  cases inner with
  | none => cases done
  | some parser =>
      rw [group, modify_bind] at done
      obtain ⟨less, rfl, reads⟩ := reads
      obtain ⟨root, between, read, done⟩ := bind_ok_iff.1 done
      obtain ⟨_, closed, closing, done⟩ := bind_ok_iff.1 done
      obtain ⟨rfl, rfl⟩ := pure_ok_iff.1 done
      obtain ⟨phrase, low, same, covers⟩ := reads.sound read
      obtain ⟨right, behind, closes, rfl⟩ := expect_closing_ok.1 closing
      exact ⟨phrase, right, Nat.succ_le_succ low, same, covers_group covers closes⟩

theorem group_complete (reads : InnerReads inner room) {paren : Lexeme}
    {before after : Cursor} {phrase : Phrase (.chain .sum)} {right : Token .closing}
    (low : phrase.nesting + 1 ≤ room) (readable : ∀ lexeme ∈ phrase.yield, Readable α lexeme)
    (covers : Covers (phrase.yield ++ [right.val]) before after) :
    group passage inner paren before = .ok (phrase.tree : Expr α) after := by
  cases inner with
  | none =>
      have none : room = 0 := reads
      omega
  | some parser =>
      obtain ⟨less, rfl, reads⟩ := reads
      obtain ⟨between, coversInner, coversRight⟩ := covers.split
      have opened : Covers phrase.yield before.opened between.opened :=
        ⟨coversInner.ahead, coversInner.position, congrArg (· + 1) coversInner.nesting⟩
      obtain ⟨⟨behind, closes⟩, rest⟩ := covers_cons.1 coversRight
      have ends : Stops (.chain .sum) between.opened.ahead := by
        show Stops _ between.ahead
        rw [closes]
        exact stops_closing right.property behind
      have read := reads.complete (Nat.le_of_succ_le_succ low) readable opened ends
      have closing : expectClosing passage between.opened = .ok () after := by
        refine expect_closing_ok.2 ⟨right, behind, closes, ?_⟩
        rw [← rest.eq_of_nil]
        rfl
      rw [group, modify_bind]
      show (parser >>= _) before.opened = _
      rw [bind_ok_of_ok read, bind_ok_of_ok closing]
      rfl

theorem covers_step {lexeme : Lexeme} {behind rest : List Lexeme} {before after : Cursor}
    (starts : before.ahead = lexeme :: behind) (covers : Covers rest before.advance after) :
    Covers (lexeme :: rest) before after :=
  covers_cons.2 ⟨⟨behind, starts⟩, covers⟩

omit [Scalar α] in
theorem built_ok {made : Except Fault (Expr α)} {tree : Expr α} {before after : Cursor} :
    built made before = .ok tree after ↔ made = .ok tree ∧ before = after := by
  cases made with
  | ok value =>
      show EStateM.Result.ok value before = _ ↔ _
      simp
  | error fault =>
      constructor
      · intro done
        cases done
      · rintro ⟨⟨⟩, -⟩

theorem numeral_of_read {text : String} {value : α} (read : Scalar.read? text = some value) :
    (Phrase.numeral text : Expr α) = .num value := by
  rw [Phrase.numeral, read]

theorem number_ok {text : String} {tree : Expr α} {before after : Cursor} :
    number text before = .ok tree after ↔
      (∃ value, Scalar.read? text = some value ∧ .num value = tree) ∧ before = after := by
  unfold number
  cases (Scalar.read? text : Option α) with
  | none =>
      constructor
      · intro done
        cases done
      · rintro ⟨⟨_, ⟨⟩, _⟩, _⟩
  | some value =>
      show EStateM.Result.ok _ before = _ ↔ _
      simp

theorem variable_sound {lexeme : Lexeme} {behind : List Lexeme} {tree : Expr α}
    {before after : Cursor} (named : lexeme.kind = .identifier)
    (ahead : before.ahead = lexeme :: behind)
    (done : built (Expr.makeVariable lexeme.text) before.advance = .ok tree after) :
    ∃ phrase : Phrase .factor, phrase.nesting ≤ room ∧ phrase.tree = tree ∧
      Covers phrase.yield before after := by
  obtain ⟨made, rfl⟩ := built_ok.1 done
  obtain ⟨-, same⟩ := Expr.make_variable_ok.1 made
  exact ⟨.identifier ⟨lexeme, named⟩, Nat.zero_le _, same, covers_step ahead (.refl _)⟩

theorem factor_sound (reads : InnerReads inner room) {tree : Expr α} {before after : Cursor}
    (done : factor passage inner before = .ok tree after) :
    ∃ phrase : Phrase .factor, phrase.nesting ≤ room ∧ phrase.tree = tree ∧
      Covers phrase.yield before after := by
  rw [factor, get_bind] at done
  cases ahead : before.ahead with
  | nil =>
      rw [ahead] at done
      cases done
  | cons lexeme behind =>
      rw [ahead] at done
      cases kind : lexeme.kind with
      | opening =>
          simp only [kind, modify_bind] at done
          obtain ⟨phrase, right, low, same, covers⟩ := group_sound reads done
          exact ⟨.group ⟨lexeme, kind⟩ phrase right, low, same, covers_step ahead covers⟩
      | identifier =>
          simp only [kind, modify_bind] at done
          cases behind with
          | nil => exact variable_sound kind ahead done
          | cons paren behind =>
              simp only [List.head?_cons] at done
              by_cases opens : paren.kind = .opening
              · rw [if_pos opens, modify_bind] at done
                obtain ⟨arg, between, inside, done⟩ := bind_ok_iff.1 done
                obtain ⟨made, rfl⟩ := built_ok.1 done
                obtain ⟨-, -, same⟩ := Expr.make_call_ok.1 made
                obtain ⟨phrase, right, low, rfl, covers⟩ := group_sound reads inside
                have next : before.advance.ahead = paren :: behind := by
                  rw [Cursor.advance, ahead]
                  rfl
                exact ⟨.call ⟨lexeme, kind⟩ ⟨paren, opens⟩ phrase right, low, same,
                  covers_step ahead (covers_step next covers)⟩
              · rw [if_neg opens] at done
                exact variable_sound kind ahead done
      | number =>
          simp only [kind, modify_bind] at done
          obtain ⟨⟨value, read, rfl⟩, rfl⟩ := number_ok.1 done
          exact ⟨.number ⟨lexeme, kind⟩, Nat.zero_le _, numeral_of_read read,
            covers_step ahead (.refl _)⟩
      | operator | closing | endMarker | other label =>
          simp only [kind] at done
          cases done

theorem factor_complete (reads : InnerReads inner room) {before after : Cursor}
    {phrase : Phrase .factor} (low : phrase.nesting ≤ room)
    (readable : ∀ lexeme ∈ phrase.yield, Readable α lexeme)
    (covers : Covers phrase.yield before after) (stops : Stops .factor after.ahead) :
    factor passage inner before = .ok (phrase.tree : Expr α) after := by
  rw [factor, get_bind]
  cases phrase with
  | group left phrase right =>
      obtain ⟨⟨behind, ahead⟩, covers⟩ := covers_cons.1 covers
      simp only [ahead, left.property, modify_bind]
      exact group_complete reads low (fun lexeme inside => readable lexeme (by
        simp [Phrase.yield, inside])) covers
  | call name left phrase right =>
      obtain ⟨⟨behind, ahead⟩, covers⟩ := covers_cons.1 covers
      obtain ⟨⟨rest, next⟩, covers⟩ := covers_cons.1 covers
      have follows : behind.head? = some left.val := by
        rw [Cursor.advance, ahead] at next
        rw [show behind = _ from next]
        rfl
      have readableInner : ∀ lexeme ∈ phrase.yield, Readable α lexeme :=
        fun lexeme inside => readable lexeme (by simp [Phrase.yield, inside])
      have read : group passage inner left.val before.advance.advance = .ok phrase.tree after :=
        group_complete reads low readableInner covers
      have named := (readable name.val (by simp [Phrase.yield])).2 name.property
      have made : Expr.makeCall name.val.text (phrase.tree : Expr α) =
          .ok (.call name.val.text phrase.tree) :=
        Expr.make_call_ok.2 ⟨named, tree_not_missing readableInner, rfl⟩
      simp only [ahead, name.property, modify_bind, follows, left.property, if_true]
      rw [bind_ok_of_ok read]
      exact built_ok.2 ⟨made, rfl⟩
  | identifier lexeme =>
      obtain ⟨⟨behind, ahead⟩, covers⟩ := covers_cons.1 covers
      have named := (readable lexeme.val (by simp [Phrase.yield])).2 lexeme.property
      have made : Expr.makeVariable lexeme.val.text = .ok (.var lexeme.val.text : Expr α) :=
        Expr.make_variable_ok.2 ⟨named, rfl⟩
      have read : built (Expr.makeVariable lexeme.val.text) before.advance =
          .ok (.var lexeme.val.text : Expr α) after :=
        built_ok.2 ⟨made, covers.eq_of_nil⟩
      simp only [ahead, lexeme.property, modify_bind]
      cases behind with
      | nil => exact read
      | cons paren rest =>
          rw [← covers.eq_of_nil, Cursor.advance, ahead] at stops
          simp only [List.head?_cons, if_neg (not_opening_of_stops stops)]
          exact read
  | number lexeme =>
      obtain ⟨⟨behind, ahead⟩, covers⟩ := covers_cons.1 covers
      obtain ⟨value, read⟩ := (readable lexeme.val (by simp [Phrase.yield])).1 lexeme.property
      simp only [ahead, lexeme.property, modify_bind]
      exact number_ok.2 ⟨⟨value, read, (numeral_of_read read).symm⟩, covers.eq_of_nil⟩

theorem sign_some {lexeme : Lexeme} {op : SignOp} :
    lexeme.sign? = some op ↔
      lexeme.kind = .operator ∧ lexeme.text = op.symbol ∧ op.isKnown = true := by
  unfold Lexeme.sign?
  simp only [Option.ite_none_right_eq_some, Option.some.injEq]
  constructor
  · rintro ⟨⟨isOperator, known⟩, rfl⟩
    exact ⟨isOperator, (SignOp.symbol_of_symbol _).symm, known⟩
  · rintro ⟨isOperator, spelled, known⟩
    rw [spelled, SignOp.of_symbol_symbol known]
    exact ⟨⟨isOperator, known⟩, rfl⟩

theorem reads_term (reads : InnerReads inner room) : Reads (term passage inner) .term room where
  sound {before after tree} done := by
    rw [term, get_bind] at done
    cases found : before.ahead.head?.bind (·.sign?) with
    | none =>
        rw [found] at done
        obtain ⟨phrase, low, same, covers⟩ := factor_sound reads done
        exact ⟨.bare phrase, low, same, covers⟩
    | some op =>
        simp only [found, modify_bind] at done
        obtain ⟨operand, between, doneInner, done⟩ := bind_ok_iff.1 done
        obtain ⟨rfl, rfl⟩ := pure_ok_iff.1 done
        obtain ⟨phrase, low, rfl, covers⟩ := factor_sound reads doneInner
        obtain ⟨lexeme, starts, isSign⟩ := Option.bind_eq_some_iff.1 found
        obtain ⟨isOperator, spelled, known⟩ := sign_some.1 isSign
        obtain ⟨behind, ahead⟩ : ∃ behind, before.ahead = lexeme :: behind :=
          List.head?_eq_some_iff.1 starts
        exact ⟨.signed ⟨⟨lexeme, isOperator⟩, op, spelled, known⟩ phrase, low, rfl,
          covers_step ahead covers⟩
  complete {before after phrase} low readable covers stops := by
    rw [term, get_bind]
    cases phrase with
    | bare phrase =>
        obtain ⟨first, rest, starts, notOperator⟩ := phrase.yield_factor
        have unsigned : before.ahead.head?.bind (·.sign?) = none := by
          rw [covers.ahead, Phrase.yield, starts]
          cases found : first.sign? with
          | none => exact found
          | some op => exact absurd (sign_some.1 found).1 notOperator
        rw [unsigned]
        exact factor_complete reads low readable covers stops
    | signed sign phrase =>
        obtain ⟨⟨behind, ahead⟩, covers⟩ := covers_cons.1 covers
        have signed : before.ahead.head?.bind (·.sign?) = some sign.op := by
          rw [ahead]
          exact sign_some.2 ⟨sign.lexeme.property, sign.spelled, sign.known⟩
        have read : factor passage inner before.advance = .ok phrase.tree after :=
          factor_complete reads low
            (fun lexeme inside => readable lexeme (by simp [Phrase.yield, inside])) covers stops
        simp only [signed, modify_bind]
        rw [bind_ok_of_ok read]
        rfl

theorem reads_levels {term : Parse (Expr α)} (reads : Reads term .term room) :
    Reads (levels term) (.chain .sum) room := by
  have power : Reads (chain .power term) (operandOf .product) room := reads_chain reads
  have product : Reads (chain .product (chain .power term)) (operandOf .sum) room :=
    reads_chain power
  exact reads_chain product

/-- The parser of an expression reads sums, whatever the room for parentheses. -/
theorem reads_expression (passage : Passage) (room : Nat) :
    Reads (expression passage room : Parse (Expr α)) (.chain .sum) room := by
  induction room with
  | zero =>
      have inner : InnerReads (none : Option (Parse (Expr α))) 0 := rfl
      exact reads_levels (reads_term inner)
  | succ room induction =>
      have inner : InnerReads (some (expression passage room : Parse (Expr α))) (room + 1) :=
        ⟨room, rfl, induction⟩
      exact reads_levels (reads_term inner)

end

end Fluxion.Grammar
