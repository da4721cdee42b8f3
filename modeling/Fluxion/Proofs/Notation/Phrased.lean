import Fluxion.Proofs.Grammar.Reads
import Fluxion.Proofs.Notation.Spelled

/-!
Derivations of given spellings. Lexemes that have the spellings of a derivation are
derived as well, wherever they stand in a text; so derivations can be put together
from spellings alone, along the grammar.
-/

namespace Fluxion.Grammar

variable {α : Type} [Scalar α]

theorem Phrase.exists_snoc {level : Level} (tail : Phrase (.tail level)) (op : Operator level)
    (operand : Phrase (operandOf level)) :
    ∃ longer : Phrase (.tail level),
      longer.yield = tail.yield ++ op.lexeme.val :: operand.yield ∧
      longer.nesting = max tail.nesting operand.nesting ∧
      ∀ left : Expr α, longer.extend left = .binary op.op (tail.extend left) operand.tree := by
  -- derivations of all categories are defined together, so the induction is over all of them
  generalize same : Category.tail level = c at tail
  induction tail with
  | done =>
      cases same
      refine ⟨.next op operand (.done level), ?_, ?_, fun left => rfl⟩
      · simp [yield]
      · simp [nesting]
  | next op' operand' rest _ inRest =>
      cases same
      obtain ⟨longer, yields, nested, extends'⟩ := inRest rfl
      refine ⟨.next op' operand' longer, ?_, ?_, fun left => extends' _⟩
      · simp [yield, yields]
      · simp only [nesting, nested, Nat.max_assoc]
  | chain | bare | signed | group | call | identifier | number => cases same

/-- Lexemes with these spellings are readable and derive, within some depth of
parentheses, a tree that is the same as this one. -/
def Stands (c : Category) (spelled : List Spelling) (tree : Expr α) (depth : Nat) : Prop :=
  ∀ lexemes : List Lexeme, lexemes.map Lexeme.spelling = spelled →
    (∀ lexeme ∈ lexemes, Readable α lexeme) ∧
      ∃ phrase : Phrase c, phrase.yield = lexemes ∧ phrase.nesting ≤ depth ∧
        (phrase.tree : Expr α).same tree = true

variable {c : Category} {level : Level} {spelled spelled' : List Spelling}
variable {tree tree' : Expr α} {depth : Nat}

theorem Stands.mono {depth' : Nat} (stands : Stands c spelled tree depth) (le : depth ≤ depth') :
    Stands c spelled tree depth' := by
  intro lexemes spells
  obtain ⟨readable, phrase, yields, nested, same⟩ := stands lexemes spells
  exact ⟨readable, phrase, yields, Nat.le_trans nested le, same⟩

theorem Stands.bare (stands : Stands .factor spelled tree depth) :
    Stands .term spelled tree depth := by
  intro lexemes spells
  obtain ⟨readable, phrase, yields, nested, same⟩ := stands lexemes spells
  exact ⟨readable, .bare phrase, yields, nested, same⟩

theorem Stands.chain (stands : Stands (operandOf level) spelled tree depth) :
    Stands (.chain level) spelled tree depth := by
  intro lexemes spells
  obtain ⟨readable, phrase, yields, nested, same⟩ := stands lexemes spells
  refine ⟨readable, .chain phrase (.done level), ?_, ?_, same⟩
  · simp [Phrase.yield, yields]
  · simpa [Phrase.nesting] using nested

theorem readable_token {kind : LexemeKind} (token : Token kind) (notNumber : kind ≠ .number)
    (notIdentifier : kind ≠ .identifier) : Readable α token.val := by
  constructor
  · intro number
    exact absurd (token.property.symm.trans number) notNumber
  · intro identifier
    exact absurd (token.property.symm.trans identifier) notIdentifier

theorem token_of_spelled {kind : LexemeKind} {text : String} {lexemes : List Lexeme}
    (spells : lexemes.map Lexeme.spelling = (kind, text) :: spelled) :
    ∃ (token : Token kind) (after : List Lexeme), lexemes = token.val :: after ∧
      token.val.text = text ∧ after.map Lexeme.spelling = spelled := by
  obtain ⟨lexeme, after, same, spell, spellsAfter⟩ := List.map_eq_cons_iff.1 spells
  exact ⟨⟨lexeme, congrArg Prod.fst spell⟩, after, same, congrArg Prod.snd spell, spellsAfter⟩

theorem Stands.join {op : BinaryOp} (placed : op.level? = some level)
    (left : Stands (.chain level) spelled tree depth)
    (right : Stands (operandOf level) spelled' tree' depth) :
    Stands (.chain level) (spelled ++ (.operator, op.symbol) :: spelled') (.binary op tree tree')
      depth := by
  intro lexemes spells
  obtain ⟨before, behind, rfl, spellsLeft, spellsBehind⟩ := List.map_eq_append_iff.1 spells
  obtain ⟨token, after, rfl, symbol, spellsRight⟩ := token_of_spelled spellsBehind
  obtain ⟨readable, phrase, rfl, nested, same⟩ := left before spellsLeft
  obtain ⟨readable', phrase', rfl, nested', same'⟩ := right after spellsRight
  constructor
  · intro other member
    simp only [List.mem_append, List.mem_cons] at member
    obtain member | rfl | member := member
    · exact readable other member
    · exact readable_token token (by decide) (by decide)
    · exact readable' other member
  · cases phrase with
    | chain first tail =>
        obtain ⟨longer, yields, nesting, extends'⟩ :=
          tail.exists_snoc (α := α) ⟨token, op, symbol, placed⟩ phrase'
        refine ⟨.chain first longer, ?_, ?_, ?_⟩
        · simp [Phrase.yield, yields]
        · simp only [Phrase.nesting] at nested ⊢
          omega
        · rw [Phrase.tree, Phrase.extend, extends']
          simp only [Expr.same, beq_self_eq_true, Bool.true_and, Bool.and_eq_true]
          exact ⟨same, same'⟩

theorem Stands.signed {op : SignOp} (known : op.isKnown = true)
    (stands : Stands .factor spelled tree depth) :
    Stands .term ((.operator, op.symbol) :: spelled) (.signed op tree) depth := by
  intro lexemes spells
  obtain ⟨token, after, rfl, symbol, spellsAfter⟩ := token_of_spelled spells
  obtain ⟨readable, phrase, rfl, nested, same⟩ := stands after spellsAfter
  refine ⟨?_, .signed ⟨token, op, symbol, known⟩ phrase, rfl, nested, ?_⟩
  · rw [List.forall_mem_cons]
    exact ⟨readable_token token (by decide) (by decide), readable⟩
  · rw [Phrase.tree, Phrase.extend]
    simp only [Expr.same, beq_self_eq_true, Bool.true_and]
    exact same

theorem readable_name (token : Token .identifier) (nonempty : token.val.text ≠ "") :
    Readable α token.val := by
  refine ⟨fun number => ?_, fun _ => nonempty⟩
  exact absurd (token.property.symm.trans number) (by decide)

theorem inside_of_spelled {lexemes : List Lexeme} {opens closes : String}
    (spells : lexemes.map Lexeme.spelling = (.opening, opens) :: (spelled ++ [(.closing, closes)])) :
    ∃ (left : Token .opening) (inner : List Lexeme) (right : Token .closing),
      lexemes = left.val :: (inner ++ [right.val]) ∧ inner.map Lexeme.spelling = spelled := by
  obtain ⟨left, behind, rfl, -, spellsBehind⟩ := token_of_spelled spells
  obtain ⟨inner, last, rfl, spellsInner, spellsLast⟩ := List.map_eq_append_iff.1 spellsBehind
  obtain ⟨right, after, rfl, -, spellsAfter⟩ := token_of_spelled spellsLast
  obtain rfl := List.map_eq_nil_iff.1 spellsAfter
  exact ⟨left, inner, right, rfl, spellsInner⟩

theorem readable_parentheses {left : Token .opening} {inner : List Lexeme}
    {right : Token .closing} (readable : ∀ lexeme ∈ inner, Readable α lexeme) :
    ∀ lexeme ∈ left.val :: (inner ++ [right.val]), Readable α lexeme := by
  intro lexeme member
  simp only [List.mem_cons, List.mem_append, List.not_mem_nil, or_false] at member
  obtain rfl | member | rfl := member
  · exact readable_token left (by decide) (by decide)
  · exact readable lexeme member
  · exact readable_token right (by decide) (by decide)

/-- The grammar does not ask how parentheses look. -/
theorem Stands.delimited {opens closes : String}
    (stands : Stands (.chain .sum) spelled tree depth) :
    Stands .factor ((.opening, opens) :: (spelled ++ [(.closing, closes)])) tree (depth + 1) := by
  intro lexemes spells
  obtain ⟨left, inner, right, rfl, spellsInner⟩ := inside_of_spelled spells
  obtain ⟨readable, phrase, rfl, nested, same⟩ := stands inner spellsInner
  exact ⟨readable_parentheses readable, .group left phrase right, rfl, Nat.succ_le_succ nested,
    same⟩

theorem Stands.group (stands : Stands (.chain .sum) spelled tree depth) :
    Stands .factor (Expr.enclosed true spelled) tree (depth + 1) :=
  stands.delimited

theorem Stands.call {name : String} (nonempty : name ≠ "")
    (stands : Stands (.chain .sum) spelled tree depth) :
    Stands .factor ((.identifier, name) :: Expr.enclosed true spelled) (.call name tree)
      (depth + 1) := by
  intro lexemes spells
  obtain ⟨token, after, rfl, text, spellsAfter⟩ := token_of_spelled spells
  obtain ⟨left, inner, right, rfl, spellsInner⟩ := inside_of_spelled spellsAfter
  obtain ⟨readable, phrase, rfl, nested, same⟩ := stands inner spellsInner
  refine ⟨?_, .call token left phrase right, rfl, Nat.succ_le_succ nested, ?_⟩
  · rw [List.forall_mem_cons]
    exact ⟨readable_name token (text ▸ nonempty), readable_parentheses readable⟩
  · rw [Phrase.tree, Phrase.extend]
    simp only [Expr.same, text, beq_self_eq_true, Bool.true_and]
    exact same

theorem stands_name {name : String} (nonempty : name ≠ "") :
    Stands .factor [(.identifier, name)] (.var name : Expr α) 0 := by
  intro lexemes spells
  obtain ⟨token, after, rfl, text, spellsAfter⟩ := token_of_spelled spells
  obtain rfl := List.map_eq_nil_iff.1 spellsAfter
  refine ⟨?_, .identifier token, rfl, Nat.le_refl _, ?_⟩
  · rw [List.forall_mem_singleton]
    exact readable_name token (text ▸ nonempty)
  · simp [Phrase.tree, Phrase.extend, Expr.same, text]

theorem stands_numeral {text : String} {read value : α} (reads : Scalar.read? text = some read)
    (same : Scalar.same read value = true) :
    Stands .factor [(.number, text)] (.num value) 0 := by
  intro lexemes spells
  obtain ⟨token, after, rfl, rfl, spellsAfter⟩ := token_of_spelled spells
  obtain rfl := List.map_eq_nil_iff.1 spellsAfter
  refine ⟨?_, .number token, rfl, Nat.le_refl _, ?_⟩
  · rw [List.forall_mem_singleton]
    refine ⟨fun _ => ⟨read, reads⟩, fun identifier => ?_⟩
    exact absurd (token.property.symm.trans identifier) (by decide)
  · simpa [Phrase.tree, Phrase.extend, Phrase.numeral, reads, Expr.same] using same

end Fluxion.Grammar
