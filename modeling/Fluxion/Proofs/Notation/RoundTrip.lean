import Fluxion.Proofs.Decimal.Whole
import Fluxion.Proofs.Expr.Same
import Fluxion.Proofs.Grammar.Acceptance
import Fluxion.Proofs.Notation.Phrased

/-!
Reading what infix notation has written. A place in a text is a category of the
grammar together with the lowest priority that stands bare there: a factor for the
operand of a sign or the exponent of a power, a chain for the operand of a looser
operator. Main statement: the text of a printable tree parses, to the tree itself
but that negative numbers have become numbers with a sign.
-/

namespace Fluxion

open Grammar Scanner

variable {α : Type} [Scalar α]

namespace Expr

/-- The tree with a minus sign in front of the opposite of each negative number. -/
def desugar : Expr α → Expr α
  | missing => missing
  | num value =>
      if Scalar.isNegative value then signed .minus (num (Scalar.neg value)) else num value
  | var name => var name
  | binary op lhs rhs => binary op lhs.desugar rhs.desugar
  | signed op operand => signed op operand.desugar
  | marked op operand => marked op operand.desugar
  | call name arg => call name arg.desugar

theorem height_of_same {tree tree' : Expr α} (same : tree.same tree' = true) :
    tree.height = tree'.height := by
  replace same := matches_of_same same
  induction same with
  | missing | num close | var name => rfl
  | binary op left right sameLeft sameRight => rw [height, height, sameLeft, sameRight]
  | signed op inner sameInner | marked op inner sameInner | call name inner sameInner =>
      rw [height, height, sameInner]

end Expr

/-- The spellings of a tree derive it at every kind of place. Only where anything may
stand bare are no parentheses put around the whole of it. -/
structure Placed (tree : Expr α) : Prop where
  tight : Stands .factor (tree.spellings tightPriority) tree.desugar tree.desugar.height
  chained (level : Level) :
    Stands (.chain level) (tree.spellings level.rank) tree.desugar tree.desugar.height
  free : Stands (.chain .sum) (tree.spellings freePriority) tree.desugar
    (tree.desugar.height - 1)

namespace Grammar

variable {tree : Expr α} {spelled : List Spelling} {depth : Nat}

/-- A chain of tighter operators is an operand of a looser one. -/
theorem Stands.widen {inner outer : Level} (looser : outer.rank ≤ inner.rank)
    (stands : Stands (.chain inner) spelled tree depth) :
    Stands (.chain outer) spelled tree depth := by
  cases outer with
  | power =>
      cases inner with
      | power => exact stands
      | sum | product => exact absurd looser (by decide)
  | product =>
      cases inner with
      | power => exact Stands.chain (show Stands (operandOf .product) spelled tree depth from stands)
      | product => exact stands
      | sum => exact absurd looser (by decide)
  | sum =>
      cases inner with
      | power =>
          have product : Stands (.chain .product) spelled tree depth :=
            Stands.chain (show Stands (operandOf .product) spelled tree depth from stands)
          exact Stands.chain (show Stands (operandOf .sum) spelled tree depth from product)
      | product => exact Stands.chain (show Stands (operandOf .sum) spelled tree depth from stands)
      | sum => exact stands

theorem Stands.chained_term (level : Level) (stands : Stands .term spelled tree depth) :
    Stands (.chain level) spelled tree depth := by
  have power : Stands (.chain .power) spelled tree depth :=
    Stands.chain (show Stands (operandOf .power) spelled tree depth from stands)
  exact power.widen level.rank_le_power

end Grammar

namespace Placed

variable {tree : Expr α} {spelled : List Spelling}

theorem of_factor (spelled : List Spelling) (spells : ∀ floor, tree.spellings floor = spelled)
    (stands : Stands .factor spelled tree.desugar (tree.desugar.height - 1)) : Placed tree where
  tight := by
    rw [spells]
    exact stands.mono (Nat.sub_le _ _)
  chained level := by
    rw [spells]
    exact (stands.bare.chained_term level).mono (Nat.sub_le _ _)
  free := by
    rw [spells]
    exact stands.bare.chained_term .sum

theorem grouped (stands : Stands (.chain .sum) spelled tree.desugar (tree.desugar.height - 1)) :
    Stands .factor (Expr.enclosed true spelled) tree.desugar tree.desugar.height := by
  have positive := tree.desugar.height_positive
  exact stands.group.mono (by omega)

theorem of_term (spelled : List Spelling) (spells : ∀ floor, tree.spellings floor =
      Expr.enclosed (floor != freePriority) spelled)
    (stands : Stands .term spelled tree.desugar (tree.desugar.height - 1)) : Placed tree := by
  have sum := stands.chained_term .sum
  refine ⟨?_, fun level => ?_, ?_⟩
  · rw [spells]
    exact grouped sum
  · have bracketed : ((level.rank : Int) != freePriority) = true := by
      cases level <;> decide
    rw [spells, bracketed]
    exact (grouped sum).bare.chained_term level
  · rw [spells]
    exact sum

theorem of_chain (level : Level) (spells : ∀ floor, tree.spellings floor =
      Expr.enclosed (level.rank < floor) spelled)
    (stands : Stands (.chain level) spelled tree.desugar (tree.desugar.height - 1)) :
    Placed tree := by
  have sum : Stands (.chain .sum) spelled tree.desugar (tree.desugar.height - 1) :=
    stands.widen (Nat.zero_le _)
  refine ⟨?_, fun outer => ?_, ?_⟩
  · have bracketed : (level.rank : Int) < tightPriority := by
      cases level <;> decide
    rw [spells, decide_eq_true bracketed]
    exact grouped sum
  · rw [spells]
    by_cases tighter : level.rank < outer.rank
    · rw [decide_eq_true (by omega)]
      exact (grouped sum).bare.chained_term outer
    · rw [decide_eq_false (by omega)]
      exact (stands.widen (by omega)).mono (Nat.sub_le _ _)
  · have bare : ¬ (level.rank : Int) < freePriority := by
      rw [freePriority]
      omega
    rw [spells, decide_eq_false bare]
    exact sum

theorem operand (placed : Placed tree) (level : Level) :
    Stands (operandOf level) (tree.spellings (level.rank + 1)) tree.desugar
      tree.desugar.height := by
  cases level with
  | sum => exact placed.chained .product
  | product => exact placed.chained .power
  | power => exact placed.tight.bare

end Placed

theorem placed_number (numbers : WholeNumbers α) {value : α}
    (whole : (Scalar.toInt? value).isSome = true) : Placed (.num value) := by
  obtain ⟨n, integer⟩ := Option.isSome_iff_exists.1 whole
  obtain ⟨read, reads, same⟩ := numbers.reads integer
  have sign := numbers.negative integer
  have digits {value : α} (same : Scalar.same read value = true) :
      Stands .factor [Expr.numeral n.natAbs] (.num value) 0 := stands_numeral reads same
  by_cases negative : n < 0
  · have signed : Scalar.isNegative value = true := by rw [sign, decide_eq_true negative]
    rw [if_pos negative] at same
    have desugared : (Expr.num value).desugar = .signed .minus (.num (Scalar.neg value)) := by
      rw [Expr.desugar, if_pos signed]
    refine Placed.of_term [(.operator, "-"), Expr.numeral n.natAbs] ?_ ?_
    · intro floor
      simp [Expr.spellings, integer, signed, Expr.numberSpellings]
    · -- the sign that the tree gains takes the minus that the digits lose
      have opposite := Stands.signed (show SignOp.minus.isKnown = true from rfl) (digits same)
      rw [desugared]
      exact opposite.mono (Nat.zero_le _)
  · have unsigned : Scalar.isNegative value = false := by rw [sign, decide_eq_false negative]
    rw [if_neg negative] at same
    have desugared : (Expr.num value).desugar = .num value := by
      rw [Expr.desugar, if_neg (by simp [unsigned])]
    refine Placed.of_factor [Expr.numeral n.natAbs] ?_ ?_
    · intro floor
      simp [Expr.spellings, integer, unsigned, Expr.numberSpellings, Expr.enclosed]
    · rw [desugared]
      exact digits same

theorem placed_of_printable (numbers : WholeNumbers α) {tree : Expr α}
    (printable : tree.Printable) : Placed tree := by
  induction tree with
  | missing => cases printable
  | marked op operand => cases printable
  | num value => exact placed_number numbers printable
  | var name => exact .of_factor _ (fun _ => rfl) (stands_name printable.ne_empty)
  | call name arg induction =>
      -- the parentheses of a call are its own, so that its argument stands bare in them
      have inside := (induction printable.2).free
      have positive := arg.desugar.height_positive
      refine .of_factor _ (fun _ => rfl) ((inside.call printable.1.ne_empty).mono ?_)
      simp only [Expr.desugar, Expr.height]
      omega
  | signed op operand induction =>
      exact .of_term _ (fun _ => rfl) ((induction printable.2).tight.signed printable.1)
  | binary op lhs rhs left right =>
      obtain ⟨known, printableLeft, printableRight⟩ := printable
      obtain ⟨level, placed, -⟩ := BinaryOp.level_of_known known
      have first := (left printableLeft).chained level
      have second := (right printableRight).operand level
      refine .of_chain level (fun floor => by rw [Expr.spellings, placed]) ?_
      exact (first.mono (Nat.le_max_left _ _)).join placed (second.mono (Nat.le_max_right _ _))

theorem not_end_of_yield {c : Category} (phrase : Phrase c) :
    ∀ lexeme ∈ phrase.yield, lexeme.isEnd = false := by
  have token {kind : LexemeKind} (notEnd : kind ≠ .endMarker) (lexeme : Token kind) :
      lexeme.val.isEnd = false := by
    rw [Lexeme.isEnd, lexeme.property]
    exact beq_false_of_ne notEnd
  induction phrase with
  | chain first rest inFirst inRest => exact List.forall_mem_append.2 ⟨inFirst, inRest⟩
  | done => exact fun _ member => absurd member List.not_mem_nil
  | next op operand rest inOperand inRest =>
      exact List.forall_mem_cons.2 ⟨token (by decide) op.lexeme,
        List.forall_mem_append.2 ⟨inOperand, inRest⟩⟩
  | bare inner induction => exact induction
  | signed sign inner induction =>
      exact List.forall_mem_cons.2 ⟨token (by decide) sign.lexeme, induction⟩
  | group left inner right induction =>
      exact List.forall_mem_cons.2 ⟨token (by decide) left,
        List.forall_mem_append.2 ⟨induction, List.forall_mem_singleton.2 (token (by decide) right)⟩⟩
  | call name left inner right induction =>
      exact List.forall_mem_cons.2 ⟨token (by decide) name,
        List.forall_mem_cons.2 ⟨token (by decide) left,
          List.forall_mem_append.2
            ⟨induction, List.forall_mem_singleton.2 (token (by decide) right)⟩⟩⟩
  | identifier lexeme | number lexeme => exact List.forall_mem_singleton.2 (token (by decide) lexeme)

theorem lexemes_of_scans {text : String} {spelled : List Spelling}
    (scans : Scans text.toList spelled) :
    ∃ lexemes last, lexemesOf text = .ok (lexemes ++ [last]) ∧ last.isEnd = true ∧
      lexemes.map Lexeme.spelling = spelled := by
  obtain ⟨read, line, column, spells, scanned⟩ :=
    scans (linesOf text) [] breaks_nil 0 0
  rw [List.append_nil] at scanned
  let last : Lexeme := ⟨.endMarker, "", line, column⟩
  have ended : (⟨[], line, column⟩ : Scanner).lexemes (linesOf text) = .ok [last] :=
    lexemes_of_end rfl rfl
  refine ⟨read, last, ?_, rfl, spells⟩
  rw [lexemesOf, ofText, scanned, ended]
  rfl

theorem before_end_append {lexemes : List Lexeme} {last : Lexeme}
    (inner : ∀ lexeme ∈ lexemes, lexeme.isEnd = false) (ends : last.isEnd = true) :
    beforeEnd (lexemes ++ [last]) = lexemes := by
  rw [beforeEnd, List.takeWhile_append_of_pos (by simpa using inner)]
  simp [ends]

/-- Text that scans to the spellings of a derivation parses to its tree. -/
theorem parse_of_stands {text : String} {spelled : List Spelling} {tree : Expr α} {depth : Nat}
    (scans : Scans text.toList spelled) (stands : Stands (.chain .sum) spelled tree depth)
    (nested : depth ≤ nestingLimit) (shallow : tree.depth ≤ depthLimit) :
    ∃ result : Expr α, parse text = .ok result ∧ result.same tree = true := by
  obtain ⟨lexemes, last, scanned, ends, spells⟩ := lexemes_of_scans scans
  obtain ⟨readable, phrase, yields, within, same⟩ := stands lexemes spells
  have inner : ∀ lexeme ∈ lexemes, lexeme.isEnd = false := yields ▸ not_end_of_yield phrase
  have ended : (lexemes ++ [last]).getLast?.any Lexeme.isEnd = true := by simp [ends]
  obtain ⟨passage, parsed⟩ : ∃ passage,
      (parseLexemes (lexemes ++ [last]) (some (linesOf text)) : Except Fault (Expr α)) =
        (run passage ⟨beforeEnd (lexemes ++ [last]), 0, 0⟩).1 := parse_lexemes_eq ended
  rw [before_end_append inner ends] at parsed
  refine ⟨phrase.tree, ?_, same⟩
  rw [parse, scanned, Outcome.ok_bind, parsed, run_ok readable]
  refine ⟨phrase, yields, Nat.le_trans within nested, ?_, rfl⟩
  rw [Expr.depth_eq_height, Expr.height_of_same same, ← Expr.depth_eq_height]
  exact shallow

/-- What infix notation has written parses to the tree with signs for its negative numbers. -/
theorem parse_written (numbers : WholeNumbers α) {tree : Expr α} {text : String}
    (printable : tree.Printable) (shallow : tree.desugar.depth ≤ depthLimit)
    (written : tree.toInfix = .ok text) :
    ∃ again : Expr α, parse text = .ok again ∧ again.same tree.desugar = true := by
  obtain ⟨text', written', scans⟩ := infix_scans numbers printable freePriority
  cases written.symm.trans written'
  have nested : tree.desugar.height - 1 ≤ nestingLimit := by
    rw [Expr.depth_eq_height] at shallow
    exact Nat.le_trans (Nat.sub_le _ _) shallow
  exact parse_of_stands scans (placed_of_printable numbers printable).free nested shallow

/-- Parsing undoes infix notation, up to the minus signs of negative numbers. -/
theorem parse_to_infix {tree : Expr Float} (printable : tree.Printable)
    (shallow : tree.desugar.depth ≤ depthLimit) :
    ∃ text result, tree.toInfix = .ok text ∧ parse text = .ok result ∧
      result.same tree.desugar = true := by
  have numbers : WholeNumbers Float := Decimal.whole_numbers
  obtain ⟨text, written, scans⟩ := infix_scans numbers printable freePriority
  have low : tree.desugar.height - 1 ≤ nestingLimit := by
    rw [Expr.depth_eq_height] at shallow
    exact Nat.le_trans (Nat.sub_le _ _) shallow
  obtain ⟨result, parsed, same⟩ :=
    parse_of_stands scans (placed_of_printable numbers printable).free low shallow
  exact ⟨text, result, written, parsed, same⟩

/-- The text of `(-2)^f(x)` parses to the power of a number with a sign. -/
theorem parse_to_infix_of_power :
    ∃ text result,
      (Expr.binary .pow (.num (-2.0)) (.call "f" (.var "x")) : Expr Float).toInfix = .ok text ∧
        parse text = .ok result ∧
        result.same (.binary .pow (.signed .minus (.num 2.0)) (.call "f" (.var "x"))) = true := by
  have printable :
      (Expr.binary .pow (.num (-2.0)) (.call "f" (.var "x")) : Expr Float).Printable := by
    exact ⟨rfl, rfl, show IsName "f" by decide, show IsName "x" by decide⟩
  have desugared :
      (Expr.binary .pow (.num (-2.0)) (.call "f" (.var "x")) : Expr Float).desugar =
        .binary .pow (.signed .minus (.num 2.0)) (.call "f" (.var "x")) := by
    rfl
  rw [← desugared]
  refine parse_to_infix printable ?_
  rw [Expr.depth_eq_height, desugared]
  decide

end Fluxion
