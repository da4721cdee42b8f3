import Fluxion.Grammar.Parse

/-!
The documented grammar as a type of derivations. A derivation knows the lexemes that
it derives, how deeply its parentheses are nested and which tree it denotes. A chain
is its first operand and a tail of further ones; the tree to the left of a tail grows
as the tail is gone through, which is what grouping from the left means. Main
statement: lexemes have at most one derivation, even as the beginning of a longer
list, provided that what follows cannot continue it.
-/

namespace Fluxion

namespace Level

def rank : Level → Nat
  | sum => 0
  | product => 1
  | power => 2

theorem rank_le_power (level : Level) : level.rank ≤ power.rank := by
  cases level <;> decide

end Level

theorem BinaryOp.of_symbol_symbol {op : BinaryOp} {level : Level} (placed : op.level? = some level) :
    ofSymbol op.symbol = op := by
  cases op with
  | other symbol => cases placed
  | _ => rfl

theorem BinaryOp.known_of_level {op : BinaryOp} {level : Level} (placed : op.level? = some level) :
    op.isKnown = true := by
  cases op with
  | other symbol => cases placed
  | _ => rfl

theorem SignOp.of_symbol_symbol {op : SignOp} (known : op.isKnown = true) :
    ofSymbol op.symbol = op := by
  cases op with
  | other symbol => cases known
  | _ => rfl

namespace Grammar

inductive Category
  | chain (level : Level)
  | tail (level : Level)
  | term
  | factor

def operandOf : Level → Category
  | .sum => .chain .product
  | .product => .chain .power
  | .power => .term

abbrev Token (kind : LexemeKind) := {lexeme : Lexeme // lexeme.kind = kind}

theorem token_ne {kind kind' : LexemeKind} (different : kind ≠ kind') (lexeme : Token kind)
    (lexeme' : Token kind') : lexeme.val ≠ lexeme'.val := by
  intro same
  rw [← lexeme.property, same, lexeme'.property] at different
  exact different rfl

structure Operator (level : Level) where
  lexeme : Token .operator
  op : BinaryOp
  spelled : lexeme.val.text = op.symbol
  placed : op.level? = some level

structure Sign where
  lexeme : Token .operator
  op : SignOp
  spelled : lexeme.val.text = op.symbol
  known : op.isKnown = true

inductive Phrase : Category → Type
  | chain {level : Level} (first : Phrase (operandOf level)) (rest : Phrase (.tail level)) :
      Phrase (.chain level)
  | done (level : Level) : Phrase (.tail level)
  | next {level : Level} (op : Operator level) (operand : Phrase (operandOf level))
      (rest : Phrase (.tail level)) : Phrase (.tail level)
  | bare (inner : Phrase .factor) : Phrase .term
  | signed (sign : Sign) (inner : Phrase .factor) : Phrase .term
  | group (left : Token .opening) (inner : Phrase (.chain .sum)) (right : Token .closing) :
      Phrase .factor
  | call (name : Token .identifier) (left : Token .opening) (inner : Phrase (.chain .sum))
      (right : Token .closing) : Phrase .factor
  | identifier (lexeme : Token .identifier) : Phrase .factor
  | number (lexeme : Token .number) : Phrase .factor

namespace Phrase

def yield {c : Category} : Phrase c → List Lexeme
  | chain first rest => first.yield ++ rest.yield
  | done _ => []
  | next op operand rest => op.lexeme.val :: (operand.yield ++ rest.yield)
  | bare inner => inner.yield
  | signed sign inner => sign.lexeme.val :: inner.yield
  | group left inner right => left.val :: (inner.yield ++ [right.val])
  | call name left inner right => name.val :: left.val :: (inner.yield ++ [right.val])
  | identifier lexeme => [lexeme.val]
  | number lexeme => [lexeme.val]

/-- The most parentheses, of groups and calls together, that a place lies inside of. -/
def nesting {c : Category} : Phrase c → Nat
  | chain first rest => max first.nesting rest.nesting
  | next _ operand rest => max operand.nesting rest.nesting
  | bare inner | signed _ inner => inner.nesting
  | group _ inner _ | call _ _ inner _ => inner.nesting + 1
  | done _ | identifier _ | number _ => 0

variable {α : Type} [Scalar α]

def numeral (text : String) : Expr α :=
  match Scalar.read? text with
  | some value => .num value
  | none => .missing

/-- What a phrase makes of the tree to its left. Only a tail takes that tree up. -/
def extend {c : Category} : Phrase c → Expr α → Expr α
  | chain first rest, _ => rest.extend (first.extend .missing)
  | done _, left => left
  | next op operand rest, left => rest.extend (.binary op.op left (operand.extend .missing))
  | bare inner, _ => inner.extend .missing
  | signed sign inner, _ => .signed sign.op (inner.extend .missing)
  | group _ inner _, _ => inner.extend .missing
  | call name _ inner _, _ => .call name.val.text (inner.extend .missing)
  | identifier lexeme, _ => .var lexeme.val.text
  | number lexeme, _ => numeral lexeme.val.text

def tree {c : Category} (phrase : Phrase c) : Expr α := phrase.extend .missing

end Phrase

/-- The lexemes that could carry on a phrase of a category: an opening parenthesis
behind a name, or an operator that binds at least as tightly as those of a chain. -/
def Category.Continues : Category → Lexeme → Prop
  | .chain level, lexeme | .tail level, lexeme => lexeme.kind = .opening ∨
      ∃ op : BinaryOp, ∃ inner : Level, lexeme.kind = .operator ∧ lexeme.text = op.symbol ∧
        op.level? = some inner ∧ level.rank ≤ inner.rank
  | .term, lexeme | .factor, lexeme => lexeme.kind = .opening

/-- A phrase of the category ends where these lexemes begin. -/
def Stops (c : Category) (rest : List Lexeme) : Prop :=
  ∀ lexeme ∈ rest.head?, ¬ c.Continues lexeme

theorem stops_nil (c : Category) : Stops c [] := nofun

theorem stops_cons {c : Category} {lexeme : Lexeme} {rest : List Lexeme} :
    Stops c (lexeme :: rest) ↔ ¬ c.Continues lexeme := by
  simp [Stops]

theorem stops_closing {c : Category} {lexeme : Lexeme} (closes : lexeme.kind = .closing)
    (rest : List Lexeme) : Stops c (lexeme :: rest) := by
  rw [stops_cons]
  cases c <;> simp [Category.Continues, closes]

theorem not_opening_of_stops {c : Category} {lexeme : Lexeme} {rest : List Lexeme}
    (stops : Stops c (lexeme :: rest)) : lexeme.kind ≠ .opening := by
  rw [stops_cons] at stops
  intro opens
  cases c with
  | chain level | tail level => exact stops (.inl opens)
  | term | factor => exact stops opens

theorem stops_operand {level : Level} {rest : List Lexeme} (stops : Stops (.tail level) rest) :
    Stops (operandOf level) rest := by
  intro lexeme first continues
  apply stops lexeme first
  cases level with
  | power => exact .inl continues
  | sum | product =>
      rcases continues with opens | ⟨op, inner, isOperator, spelled, placed, tighter⟩
      · exact .inl opens
      · exact .inr ⟨op, inner, isOperator, spelled, placed, Nat.le_trans (by decide) tighter⟩

theorem symbol_injective {op op' : BinaryOp} {level level' : Level} (placed : op.level? = some level)
    (placed' : op'.level? = some level') (same : op.symbol = op'.symbol) : op = op' := by
  rw [← BinaryOp.of_symbol_symbol placed, same, BinaryOp.of_symbol_symbol placed']

theorem stops_operator {level : Level} (op : Operator level) (rest : List Lexeme) :
    Stops (operandOf level) (op.lexeme.val :: rest) := by
  rw [stops_cons]
  have notOpening : op.lexeme.val.kind ≠ .opening := by
    rw [op.lexeme.property]
    decide
  have sameLevel {inner : Level} {op' : BinaryOp} (spelled : op.lexeme.val.text = op'.symbol)
      (placed : op'.level? = some inner) : level = inner := by
    have same := symbol_injective op.placed placed (op.spelled.symm.trans spelled)
    have level := op.placed
    rw [same, placed] at level
    exact (Option.some.inj level).symm
  intro continues
  cases level with
  | power => exact notOpening continues
  | sum | product =>
      rcases continues with opens | ⟨op', inner, isOperator, spelled, placed, tighter⟩
      · exact notOpening opens
      · rw [← sameLevel spelled placed] at tighter
        exact absurd tighter (by decide)

namespace Phrase

theorem yield_factor (phrase : Phrase .factor) :
    ∃ first rest, phrase.yield = first :: rest ∧ first.kind ≠ .operator := by
  cases phrase with
  | group left inner right =>
      exact ⟨left.val, _, rfl, by rw [left.property]; decide⟩
  | call name left inner right =>
      exact ⟨name.val, _, rfl, by rw [name.property]; decide⟩
  | identifier lexeme => exact ⟨lexeme.val, _, rfl, by rw [lexeme.property]; decide⟩
  | number lexeme => exact ⟨lexeme.val, _, rfl, by rw [lexeme.property]; decide⟩

/-- Whatever ends a tail, the tail and what is behind it end an operand in front. -/
theorem stops_behind {level : Level} (phrase : Phrase (.tail level)) {rest : List Lexeme}
    (stops : Stops (.tail level) rest) : Stops (operandOf level) (phrase.yield ++ rest) := by
  cases phrase with
  | done => exact stops_operand stops
  | next op operand tail => exact stops_operator op _

end Phrase

theorem Operator.eq_of_lexeme {level : Level} {op op' : Operator level}
    (same : op.lexeme.val = op'.lexeme.val) : op = op' := by
  obtain ⟨lexeme, symbol, spelled, placed⟩ := op
  obtain ⟨lexeme', symbol', spelled', placed'⟩ := op'
  obtain rfl : lexeme = lexeme' := Subtype.ext same
  obtain rfl := symbol_injective placed placed' (spelled.symm.trans spelled')
  rfl

theorem Sign.eq_of_lexeme {sign sign' : Sign} (same : sign.lexeme.val = sign'.lexeme.val) :
    sign = sign' := by
  obtain ⟨lexeme, op, spelled, known⟩ := sign
  obtain ⟨lexeme', op', spelled', known'⟩ := sign'
  obtain rfl : lexeme = lexeme' := Subtype.ext same
  obtain rfl : op = op' := by
    rw [← SignOp.of_symbol_symbol known, ← spelled, spelled', SignOp.of_symbol_symbol known']
  rfl

theorem operator_continues {level : Level} (op : Operator level) :
    (Category.tail level).Continues op.lexeme.val :=
  .inr ⟨op.op, level, op.lexeme.property, op.spelled, op.placed, Nat.le_refl _⟩

/-- What begins with a phrase of a category and goes on with what cannot continue it
does so in one way only. -/
theorem Phrase.unique {c : Category} (phrase phrase' : Phrase c) {rest rest' : List Lexeme}
    (same : phrase.yield ++ rest = phrase'.yield ++ rest') (stops : Stops c rest)
    (stops' : Stops c rest') : phrase = phrase' ∧ rest = rest' := by
  induction phrase generalizing rest rest' with
  | chain first tail inFirst inTail =>
      cases phrase' with
      | chain first' tail' =>
          simp only [yield, List.append_assoc] at same
          obtain ⟨rfl, behind⟩ :=
            inFirst first' same (tail.stops_behind stops) (tail'.stops_behind stops')
          obtain ⟨rfl, ends⟩ := inTail tail' behind stops stops'
          exact ⟨rfl, ends⟩
  | done level =>
      cases phrase' with
      | done => exact ⟨rfl, same⟩
      | next op operand tail =>
          rw [show rest = _ from same, yield, List.cons_append, stops_cons] at stops
          exact absurd (operator_continues op) stops
  | next op operand tail inOperand inTail =>
      cases phrase' with
      | done =>
          rw [← show _ = rest' from same, yield, List.cons_append, stops_cons] at stops'
          exact absurd (operator_continues op) stops'
      | next op' operand' tail' =>
          simp only [yield, List.cons_append, List.append_assoc, List.cons.injEq] at same
          obtain rfl := Operator.eq_of_lexeme same.1
          obtain ⟨rfl, behind⟩ := inOperand operand' same.2 (tail.stops_behind stops)
            (tail'.stops_behind stops')
          obtain ⟨rfl, ends⟩ := inTail tail' behind stops stops'
          exact ⟨rfl, ends⟩
  | bare inner inInner =>
      cases phrase' with
      | bare inner' =>
          obtain ⟨rfl, ends⟩ := inInner inner' same stops stops'
          exact ⟨rfl, ends⟩
      | signed sign inner' =>
          obtain ⟨first, tail, starts, notOperator⟩ := inner.yield_factor
          simp only [yield, starts, List.cons_append, List.cons.injEq] at same
          rw [same.1] at notOperator
          exact absurd sign.lexeme.property notOperator
  | signed sign inner inInner =>
      cases phrase' with
      | bare inner' =>
          obtain ⟨first, tail, starts, notOperator⟩ := inner'.yield_factor
          simp only [yield, starts, List.cons_append, List.cons.injEq] at same
          rw [← same.1] at notOperator
          exact absurd sign.lexeme.property notOperator
      | signed sign' inner' =>
          simp only [yield, List.cons_append, List.cons.injEq] at same
          obtain rfl := Sign.eq_of_lexeme same.1
          obtain ⟨rfl, ends⟩ := inInner inner' same.2 stops stops'
          exact ⟨rfl, ends⟩
  | group left inner right inInner =>
      cases phrase' with
      | group left' inner' right' =>
          simp only [yield, List.cons_append, List.append_assoc, List.cons.injEq] at same
          obtain rfl := Subtype.ext same.1
          obtain ⟨rfl, behind⟩ := inInner inner' same.2 (stops_closing right.property _)
            (stops_closing right'.property _)
          simp only [List.nil_append, List.cons.injEq] at behind
          obtain rfl := Subtype.ext behind.1
          exact ⟨rfl, behind.2⟩
      | call name' left' inner' right' =>
          exact absurd (List.cons.inj same).1 (token_ne (by decide) left name')
      | identifier lexeme' => exact absurd (List.cons.inj same).1 (token_ne (by decide) left lexeme')
      | number lexeme' => exact absurd (List.cons.inj same).1 (token_ne (by decide) left lexeme')
  | call name left inner right inInner =>
      cases phrase' with
      | group left' inner' right' =>
          exact absurd (List.cons.inj same).1 (token_ne (by decide) name left')
      | call name' left' inner' right' =>
          simp only [yield, List.cons_append, List.append_assoc, List.cons.injEq] at same
          obtain rfl := Subtype.ext same.1
          obtain rfl := Subtype.ext same.2.1
          obtain ⟨rfl, behind⟩ := inInner inner' same.2.2 (stops_closing right.property _)
            (stops_closing right'.property _)
          simp only [List.nil_append, List.cons.injEq] at behind
          obtain rfl := Subtype.ext behind.1
          exact ⟨rfl, behind.2⟩
      | identifier lexeme' =>
          rw [show rest' = _ from (List.cons.inj same).2.symm] at stops'
          exact absurd left.property (not_opening_of_stops stops')
      | number lexeme' => exact absurd (List.cons.inj same).1 (token_ne (by decide) name lexeme')
  | identifier lexeme =>
      cases phrase' with
      | group left' inner' right' =>
          exact absurd (List.cons.inj same).1 (token_ne (by decide) lexeme left')
      | call name' left' inner' right' =>
          rw [show rest = _ from (List.cons.inj same).2] at stops
          exact absurd left'.property (not_opening_of_stops stops)
      | identifier lexeme' =>
          obtain rfl := Subtype.ext (List.cons.inj same).1
          exact ⟨rfl, (List.cons.inj same).2⟩
      | number lexeme' =>
          exact absurd (List.cons.inj same).1 (token_ne (by decide) lexeme lexeme')
  | number lexeme =>
      cases phrase' with
      | group left' inner' right' =>
          exact absurd (List.cons.inj same).1 (token_ne (by decide) lexeme left')
      | call name' left' inner' right' =>
          exact absurd (List.cons.inj same).1 (token_ne (by decide) lexeme name')
      | identifier lexeme' =>
          exact absurd (List.cons.inj same).1 (token_ne (by decide) lexeme lexeme')
      | number lexeme' =>
          obtain rfl := Subtype.ext (List.cons.inj same).1
          exact ⟨rfl, (List.cons.inj same).2⟩

end Grammar

end Fluxion
