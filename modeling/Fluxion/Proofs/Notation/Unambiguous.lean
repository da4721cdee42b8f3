import Fluxion.Proofs.Decimal.Integral
import Fluxion.Proofs.Notation.RoundTrip
import Fluxion.Proofs.Notation.Typeset

/-!
Trees that LaTeX notation tells apart. The lexemes of a LaTeX text have at most one
derivation, since they are those of an infix text that has parentheses in more places.
Main statement: of trees without markers, over words and whole numbers that are not
negative, two have the same text only if they are the same.
-/

namespace Fluxion

open Grammar Ending Outcome

variable {α : Type} [Scalar α]

namespace Expr

/-- The names in the tree are words, and its numbers are whole and not negative. -/
def Typesettable : Expr α → Prop
  | missing | marked _ _ => False
  | num value => ∃ n : Nat, Scalar.toInt? value = some (n : Int)
  | var name => IsWord name
  | binary op lhs rhs => op.isKnown = true ∧ lhs.Typesettable ∧ rhs.Typesettable
  | signed op operand => op.isKnown = true ∧ operand.Typesettable
  | call name arg => IsWord name ∧ arg.Typesettable

end Expr

/-- The lexemes of the text derive the tree, and they start with its name if it has one. -/
def Conveys (c : Category) (text : String) (tree : Expr α) : Prop :=
  ∃ spelled depth, Typesets text spelled ∧ Stands c spelled tree depth ∧
    (tree.isNamed = true → ∃ name rest, spelled = (.identifier, name) :: rest)

def placeOf (floor : Int) : Category :=
  if floor ≤ 0 then .chain .sum
  else if floor ≤ 1 then .chain .product
  else if floor ≤ 2 then .chain .power
  else .factor

theorem Grammar.Stands.in_braces {spelled : List Spelling} {tree : Expr α} {depth : Nat}
    (stands : Stands (.chain .sum) spelled tree depth) :
    Stands .factor (inBraces spelled) tree (depth + 1) :=
  stands.delimited

namespace Conveys

variable {c c' : Category} {text text' : String} {lhs rhs tree : Expr α}

theorem imp (conveys : Conveys c text tree)
    (implies : ∀ {spelled depth}, Stands c spelled tree depth → Stands c' spelled tree depth) :
    Conveys c' text tree := by
  obtain ⟨spelled, depth, typesets, stands, named⟩ := conveys
  exact ⟨spelled, depth, typesets, implies stands, named⟩

theorem anywhere (conveys : Conveys .factor text tree) (floor : Int) :
    Conveys (placeOf floor) text tree := by
  unfold placeOf
  split_ifs
  · exact conveys.imp fun stands => stands.bare.chained_term .sum
  · exact conveys.imp fun stands => stands.bare.chained_term .product
  · exact conveys.imp fun stands => stands.bare.chained_term .power
  · exact conveys

theorem chained {level : Level} {floor : Int} (conveys : Conveys (.chain level) text tree)
    (low : floor ≤ level.rank) : Conveys (placeOf floor) text tree := by
  have bound : level.rank ≤ 2 := level.rank_le_power
  unfold placeOf
  split_ifs
  · exact conveys.imp fun stands => stands.widen (Nat.zero_le _)
  · have inner : Level.product.rank ≤ level.rank := by
      show 1 ≤ level.rank
      omega
    exact conveys.imp fun stands => stands.widen inner
  · have inner : Level.power.rank ≤ level.rank := by
      show 2 ≤ level.rank
      omega
    exact conveys.imp fun stands => stands.widen inner
  · omega

theorem sum {op : BinaryOp} (loose : op.level? = some .sum)
    (left : Conveys (.chain .sum) text lhs) (right : Conveys (.chain .product) text' rhs) :
    Conveys (.chain .sum) (text ++ " " ++ op.symbol ++ " " ++ text') (.binary op lhs rhs) := by
  obtain ⟨_, depth, typesets, stands, -⟩ := left
  obtain ⟨_, depth', typesets', stands', -⟩ := right
  refine ⟨_, max depth depth', typesets.sum loose typesets', ?_, nofun⟩
  exact (stands.mono (Nat.le_max_left _ _)).join loose (stands'.mono (Nat.le_max_right _ _))

theorem product (left : Conveys (.chain .product) text lhs)
    (right : Conveys (.chain .power) text' rhs) :
    Conveys (.chain .product) (text ++ " \\cdot " ++ text') (.binary .mul lhs rhs) := by
  obtain ⟨_, depth, typesets, stands, -⟩ := left
  obtain ⟨_, depth', typesets', stands', -⟩ := right
  refine ⟨_, max depth depth', typesets.product typesets', ?_, nofun⟩
  have placed : BinaryOp.mul.level? = some .product := rfl
  exact (stands.mono (Nat.le_max_left _ _)).join placed (stands'.mono (Nat.le_max_right _ _))

theorem fraction (top : Conveys (.chain .sum) text lhs) (bottom : Conveys (.chain .sum) text' rhs) :
    Conveys (.chain .product) ("\\frac" ++ Expr.braced text ++ Expr.braced text')
      (.binary .div lhs rhs) := by
  obtain ⟨_, depth, typesets, stands, -⟩ := top
  obtain ⟨_, depth', typesets', stands', -⟩ := bottom
  refine ⟨_, max (depth + 1) (depth' + 1), typesets.fraction typesets', ?_, nofun⟩
  have upper := stands.in_braces.bare.chained_term .product
  have lower := stands'.in_braces.bare.chained_term .power
  have placed : BinaryOp.div.level? = some .product := rfl
  exact (upper.mono (Nat.le_max_left _ _)).join placed (lower.mono (Nat.le_max_right _ _))

theorem power (base : Conveys .factor text lhs) (exponent : Conveys (.chain .sum) text' rhs) :
    Conveys (.chain .power) (text ++ "^" ++ Expr.braced text') (.binary .pow lhs rhs) := by
  obtain ⟨_, depth, typesets, stands, -⟩ := base
  obtain ⟨_, depth', typesets', stands', -⟩ := exponent
  refine ⟨_, max depth (depth' + 1), typesets.power typesets', ?_, nofun⟩
  have below := stands.bare.chained_term .power
  have above := stands'.in_braces.bare
  have placed : BinaryOp.pow.level? = some .power := rfl
  exact (below.mono (Nat.le_max_left _ _)).join placed (above.mono (Nat.le_max_right _ _))

theorem signed {op : SignOp} (known : op.isKnown = true) (operand : Conveys .factor text tree) :
    Conveys (.chain .sum) (op.symbol ++ text) (.signed op tree) := by
  obtain ⟨_, depth, typesets, stands, -⟩ := operand
  exact ⟨_, depth, typesets.signed known, (stands.signed known).chained_term .sum, nofun⟩

theorem call {name : String} (word : IsWord name) (arg : Conveys (.chain .sum) text tree) :
    Conveys .factor (Expr.latexFunctionName name ++ "(" ++ text ++ ")") (.call name tree) := by
  obtain ⟨_, depth, typesets, stands, -⟩ := arg
  exact ⟨_, depth + 1, typesets_call word typesets, stands.call word.ne_empty, fun _ => ⟨_, _, rfl⟩⟩

theorem bracketed {opens closes : String} (inside : Conveys (.chain .sum) text tree)
    (nameless : tree.isNamed = false)
    (left : ∀ behind : Ending, behind.puts opens = ⟨true, Expr.opening :: behind.lexemes⟩)
    (right : ∀ behind : Ending, behind.puts closes = ⟨true, Expr.closing :: behind.lexemes⟩) :
    Conveys .factor (opens ++ text ++ closes) tree := by
  obtain ⟨_, depth, typesets, stands, -⟩ := inside
  refine ⟨_, depth + 1, typesets.enclosed left right, stands.group, ?_⟩
  rw [nameless]
  nofun

/-- A tree with an operator is put in brackets exactly where its operator is too loose. -/
theorem binary {level : Level} {op : BinaryOp} {floor : Int}
    (conveys : Conveys (.chain level) text (.binary op lhs rhs)) :
    Conveys (placeOf floor) (bracket ((level.rank : Int) < floor) "\\left(" text "\\right)")
      (.binary op lhs rhs) := by
  by_cases loose : (level.rank : Int) < floor
  · rw [decide_eq_true loose]
    have sum : Conveys (.chain .sum) text (.binary op lhs rhs) :=
      conveys.imp fun stands => stands.widen (Nat.zero_le _)
    exact (sum.bracketed rfl (fun _ => rfl) fun _ => rfl).anywhere floor
  · rw [decide_eq_false loose]
    exact conveys.chained (by omega)

end Conveys

theorem conveys_variable {name : String} (word : IsWord name) :
    Conveys .factor (Expr.latexVariableName name) (.var name : Expr α) :=
  ⟨_, 0, typesets_variable word, stands_name word.ne_empty, fun _ => ⟨_, _, rfl⟩⟩

section

variable (numbers : WholeNumbers α) {value : α} {n : Nat}
  (whole : Scalar.toInt? value = some (n : Int))

include numbers whole

theorem written_digits (floor : Int) :
    writtenNumber value floor = String.ofList (Nat.toDigits 10 n) := by
  have digits := plain_text_of_whole whole
  rw [if_neg (by omega), Int.natAbs_natCast] at digits
  rw [writtenNumber, numbers.not_negative whole, ← digits, String.ofList_toList]
  rfl

theorem stands_digits : Stands .factor [Expr.numeral n] (.num value) 0 := by
  obtain ⟨read, reads, same⟩ := numbers.reads whole
  rw [if_neg (by omega)] at same
  exact stands_numeral reads same

theorem Conveys.juxtaposed {text : String} {rhs : Expr α} (right : Conveys (.chain .power) text rhs)
    (named : rhs.isNamed = true) :
    Conveys (.chain .product) (String.ofList (Nat.toDigits 10 n) ++ text)
      (.binary .mul (.num value) rhs) := by
  obtain ⟨_, depth, typesets, stands, starts⟩ := right
  obtain ⟨name, rest, rfl⟩ := starts named
  have placed : BinaryOp.mul.level? = some .product := rfl
  have left := ((stands_digits numbers whole).bare.chained_term .product).mono (Nat.zero_le depth)
  exact ⟨_, depth, typesets.juxtaposed n, left.join placed stands, nofun⟩

end

/-- A tree of the kind has a text at every place, and it can be read there. -/
theorem conveys_latex (numbers : WholeNumbers α) {tree : Expr α} (plain : tree.Typesettable) :
    ∀ floor, ∃ text, tree.latexAt floor = .ok text ∧ Conveys (placeOf floor) text tree := by
  induction tree with
  | missing | marked op operand => cases plain
  | num value =>
      intro floor
      obtain ⟨n, whole⟩ := plain
      refine ⟨_, rfl, ?_⟩
      rw [written_digits numbers whole]
      have digits : Conveys .factor (String.ofList (Nat.toDigits 10 n)) (.num value) :=
        ⟨_, 0, typesets_numeral n, stands_digits numbers whole, nofun⟩
      exact digits.anywhere floor
  | var name => exact fun floor => ⟨_, rfl, (conveys_variable plain).anywhere floor⟩
  | call name arg induction =>
      intro floor
      obtain ⟨text, written, conveys⟩ := induction plain.2 freePriority
      refine ⟨_, ?_, (conveys.call plain.1).anywhere floor⟩
      rw [Expr.latexAt, written]
      rfl
  | signed op operand induction =>
      intro floor
      obtain ⟨text, written, conveys⟩ := induction plain.2 tightPriority
      refine ⟨bracket (floor != freePriority) "(" (op.symbol ++ text) ")", ?_, ?_⟩
      · rw [Expr.latexAt, written]
        rfl
      · have signed := conveys.signed plain.1
        by_cases free : floor = freePriority
        · rw [free]
          exact signed
        · rw [bne_iff_ne.2 free]
          exact (signed.bracketed rfl (fun _ => rfl) fun _ => rfl).anywhere floor
  | binary op lhs rhs left right =>
      intro floor
      obtain ⟨known, plainLeft, plainRight⟩ := plain
      cases op with
      | add | sub =>
          obtain ⟨text, written, first⟩ := left plainLeft 0
          obtain ⟨text', written', second⟩ := right plainRight (0 + 1)
          refine ⟨_, ?_, (first.sum rfl second).binary⟩
          simp only [Expr.latexAt, BinaryOp.priority, pure_bind, written, written', ok_bind]
          rfl
      | mul =>
          obtain ⟨text, written, first⟩ := left plainLeft 1
          obtain ⟨text', written', second⟩ := right plainRight (1 + 1)
          by_cases juxtaposed : lhs.isJuxtaposed rhs = true
          · cases lhs with
            | num value =>
                obtain ⟨n, whole⟩ := plainLeft
                rw [Expr.isJuxtaposed, Bool.and_eq_true] at juxtaposed
                have digits := written_digits numbers whole 1
                refine ⟨_, ?_, (second.juxtaposed numbers whole juxtaposed.2).binary⟩
                simp only [Expr.latexAt, BinaryOp.priority, pure_bind, written', ok_bind,
                  Expr.isJuxtaposed, juxtaposed, digits]
                rfl
            | _ => cases juxtaposed
          · refine ⟨_, ?_, (first.product second).binary⟩
            simp only [Expr.latexAt, BinaryOp.priority, pure_bind, written, written', ok_bind,
              if_neg juxtaposed]
            rfl
      | div =>
          obtain ⟨text, written, first⟩ := left plainLeft freePriority
          obtain ⟨text', written', second⟩ := right plainRight freePriority
          refine ⟨_, ?_, (first.fraction second).binary⟩
          simp only [Expr.latexAt, BinaryOp.priority, pure_bind, written, written', ok_bind]
          rfl
      | pow =>
          obtain ⟨text, written, first⟩ := left plainLeft tightPriority
          obtain ⟨text', written', second⟩ := right plainRight freePriority
          refine ⟨_, ?_, (first.power second).binary⟩
          simp only [Expr.latexAt, BinaryOp.priority, pure_bind, written, written', ok_bind]
          rfl
      | other symbol => cases known

namespace Expr

theorem same_of_common {read tree tree' : Expr Float} (same : read.same tree = true)
    (same' : read.same tree' = true) : tree.same tree' = true := by
  replace same := matches_of_same same
  induction same generalizing tree' with
  | missing => exact same'
  | num close =>
      cases matches_of_same same' with
      | num close' => exact Decimal.same_trans (Decimal.same_symm close) close'
  | var name => exact same'
  | binary op left right first second =>
      cases matches_of_same same' with
      | binary op left' right' =>
          simp only [Expr.same, first left'.same, second right'.same, beq_self_eq_true,
            Bool.and_self]
  | signed op inner induction | marked op inner induction | call name inner induction =>
      cases matches_of_same same'
      rename_i inner'
      simp only [Expr.same, induction inner'.same, beq_self_eq_true, Bool.and_self]

theorem is_named_of_matches {tree tree' : Expr α} (same : Matches tree tree') :
    tree.isNamed = tree'.isNamed := by
  cases same <;> rfl

theorem latex_of_same {tree tree' : Expr Float} (plain : tree.Typesettable)
    (plain' : tree'.Typesettable) (same : tree.same tree' = true) :
    ∀ floor, tree.latexAt floor = tree'.latexAt floor := by
  replace same := matches_of_same same
  induction same with
  | missing | marked op inner induction => cases plain
  | num close =>
      intro floor
      obtain ⟨n, whole⟩ := plain'
      simp only [latexAt, written_digits Decimal.whole_numbers whole,
        written_digits Decimal.whole_numbers (Decimal.to_int_of_same close whole)]
  | var name => exact fun _ => rfl
  | call name inner induction | signed op inner induction =>
      intro floor
      simp only [latexAt, induction plain.2 plain'.2]
  | @binary op lhs rhs lhs' rhs' left right first second =>
      intro floor
      have juxtaposed : lhs.isJuxtaposed rhs = lhs'.isJuxtaposed rhs' := by
        cases left with
        | num close =>
            obtain ⟨n, whole⟩ := plain.2.1
            obtain ⟨n', whole'⟩ := plain'.2.1
            simp only [isJuxtaposed, Decimal.non_negative_of_whole whole,
              Decimal.non_negative_of_whole whole', is_named_of_matches right]
        | _ => rfl
      simp only [latexAt, first plain.2.1 plain'.2.1, second plain.2.2 plain'.2.2, juxtaposed]

end Expr

/-- What is read of a text is one tree. -/
theorem Conveys.unique {c : Category} {text : String} {tree tree' : Expr Float}
    (conveys : Conveys c text tree) (conveys' : Conveys c text tree') :
    tree.same tree' = true := by
  obtain ⟨spelled, _, typesets, stands, -⟩ := conveys
  obtain ⟨spelled', _, typesets', stands', -⟩ := conveys'
  obtain rfl : spelled = spelled' := by
    have reads := (typesets _ (.gap [])).symm.trans (typesets' _ (.gap []))
    simpa using reads
  have spells : (spelled.map fun spelling => (⟨spelling.1, spelling.2, 0, 0⟩ : Lexeme)).map
      Lexeme.spelling = spelled := by
    simp [Function.comp_def, Lexeme.spelling]
  obtain ⟨-, phrase, yields, -, same⟩ := stands _ spells
  obtain ⟨-, phrase', yields', -, same'⟩ := stands' _ spells
  have yieldSame : phrase.yield ++ [] = phrase'.yield ++ [] := by rw [yields, yields']
  obtain ⟨rfl, -⟩ := phrase.unique phrase' yieldSame (stops_nil c) (stops_nil c)
  exact Expr.same_of_common same same'

/-- Trees of words and whole numbers have a text each, and the texts are equal exactly if the
trees are. -/
theorem latex_unambiguous {tree tree' : Expr Float} (plain : tree.Typesettable)
    (plain' : tree'.Typesettable) :
    ∃ text text', tree.toLatex = .ok text ∧ tree'.toLatex = .ok text' ∧
      (text = text' ↔ tree.same tree' = true) := by
  obtain ⟨text, written, conveys⟩ := conveys_latex Decimal.whole_numbers plain freePriority
  obtain ⟨text', written', conveys'⟩ := conveys_latex Decimal.whole_numbers plain' freePriority
  refine ⟨text, text', written, written', ?_, fun same => ?_⟩
  · rintro rfl
    exact conveys.unique conveys'
  · have equal := Expr.latex_of_same plain plain' same freePriority
    rw [written, written'] at equal
    exact Except.ok.inj equal

def productFromLeft : Expr Float :=
  .binary .mul (.binary .mul (.num 2.0) (.var "pi")) (.call "ln" (.var "x"))

def productFromRight : Expr Float :=
  .binary .mul (.num 2.0) (.binary .mul (.var "pi") (.call "ln" (.var "x")))

/-- The grouping of a product shows in its text. -/
theorem latex_unambiguous_of_products :
    productFromLeft.Typesettable ∧ productFromRight.Typesettable ∧
      ∃ text text', productFromLeft.toLatex = .ok text ∧ productFromRight.toLatex = .ok text' ∧
        text ≠ text' := by
  have two : (Expr.num 2.0 : Expr Float).Typesettable := ⟨2, rfl⟩
  have circle : (Expr.var "pi" : Expr Float).Typesettable := show IsWord "pi" by decide
  have logarithm : (Expr.call "ln" (.var "x") : Expr Float).Typesettable :=
    ⟨by decide, show IsWord "x" by decide⟩
  have plain : productFromLeft.Typesettable := ⟨rfl, ⟨rfl, two, circle⟩, logarithm⟩
  have plain' : productFromRight.Typesettable := ⟨rfl, two, rfl, circle, logarithm⟩
  obtain ⟨text, text', written, written', equal⟩ := latex_unambiguous plain plain'
  refine ⟨plain, plain', text, text', written, written', fun same => ?_⟩
  exact absurd (equal.1 same) (by decide)

end Fluxion
