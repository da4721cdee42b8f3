import Fluxion.Proofs.Decimal.Integral
import Fluxion.Proofs.Grammar.Answers
import Fluxion.Proofs.Notation.RoundTrip
import Fluxion.Proofs.Simplify.Resources

/-!
Writing what was read. The numbers of a text are runs of digits, so each of them is a
whole number or the infinity, and the infinity is written as a name. Main statement:
the tree of a text has a text, that text parses to a tree with the same text, and the
two trees are equal exactly if the first one has finite numbers only.
-/

namespace Fluxion

open Decimal Grammar Outcome

namespace Expr

/-- The tree is one that a text can have: numbers come from digits and names are names. -/
def Textual : Expr Float → Prop
  | missing | marked _ _ => False
  | num value => ∃ n, value = Numeral.magnitude n 0
  | var name => IsName name
  | binary op lhs rhs => op.isKnown = true ∧ lhs.Textual ∧ rhs.Textual
  | signed op operand => op.isKnown = true ∧ operand.Textual
  | call name arg => IsName name ∧ arg.Textual

/-- The tree with the numbers that have no digits taken for the names they are written as. -/
def renamed : Expr Float → Expr Float
  | missing => missing
  | num value =>
      if (Scalar.toInt? value).isSome then num value else var (Scalar.plainText value)
  | var name => var name
  | binary op lhs rhs => binary op lhs.renamed rhs.renamed
  | signed op operand => signed op operand.renamed
  | marked op operand => marked op operand.renamed
  | call name arg => call name arg.renamed

theorem height_renamed (tree : Expr Float) : tree.renamed.height = tree.height := by
  induction tree with
  | missing | var name => rfl
  | num value =>
      rw [renamed]
      split <;> rfl
  | binary op lhs rhs left right => rw [renamed, height, height, left, right]
  | signed op operand inner | marked op operand inner | call name operand inner =>
      rw [renamed, height, height, inner]

end Expr

/-- A double of digits is whole and not negative, or it is written as a name. -/
theorem written_cases {value : Float} (spelled : ∃ n, value = Numeral.magnitude n 0) :
    (∃ whole : Nat, Scalar.toInt? value = some (whole : Int)) ∨ value = infinite := by
  obtain ⟨n, rfl⟩ := spelled
  exact magnitude_cases n

theorem infinite_not_whole : Scalar.toInt? infinite = none := rfl

theorem infinite_not_finite : Scalar.isFinite infinite = false := rfl

section

variable {tree tree' : Expr Float}

theorem printable_renamed (textual : tree.Textual) : tree.renamed.Printable := by
  induction tree with
  | missing | marked op operand inner => cases textual
  | num value =>
      rcases written_cases textual with ⟨whole, integer⟩ | rfl
      · rw [Expr.renamed, integer]
        show (Scalar.toInt? value).isSome = true
        rw [integer]
        rfl
      · show IsName "inf"
        decide
  | var name => exact textual
  | binary op lhs rhs left right => exact ⟨textual.1, left textual.2.1, right textual.2.2⟩
  | signed op operand inner | call name operand inner => exact ⟨textual.1, inner textual.2⟩

theorem desugar_renamed (textual : tree.Textual) : tree.renamed.desugar = tree.renamed := by
  induction tree with
  | missing | marked op operand inner => cases textual
  | num value =>
      rcases written_cases textual with ⟨whole, integer⟩ | rfl
      · rw [Expr.renamed, integer]
        simp [Expr.desugar, whole_numbers.not_negative integer]
      · rfl
  | var name => rfl
  | binary op lhs rhs left right =>
      rw [Expr.renamed, Expr.desugar, left textual.2.1, right textual.2.2]
  | signed op operand inner | call name operand inner =>
      rw [Expr.renamed, Expr.desugar, inner textual.2]

theorem infix_renamed (textual : tree.Textual) :
    ∀ floor, tree.renamed.infixAt floor = tree.infixAt floor := by
  induction tree with
  | missing | marked op operand inner => cases textual
  | num value =>
      intro floor
      rcases written_cases textual with ⟨whole, integer⟩ | rfl
      · rw [Expr.renamed, integer]
        rfl
      · rfl
  | var name => exact fun _ => rfl
  | binary op lhs rhs left right =>
      intro floor
      simp only [Expr.renamed, Expr.infixAt, left textual.2.1, right textual.2.2]
  | signed op operand inner | call name operand inner =>
      intro floor
      simp only [Expr.renamed, Expr.infixAt, inner textual.2]

theorem infix_of_same (printable : tree.Printable) (same : tree'.same tree = true) :
    ∀ floor, tree'.infixAt floor = tree.infixAt floor := by
  replace same := Expr.matches_of_same same
  induction same with
  | missing | marked op inner sameInner => cases printable
  | num close =>
      intro floor
      obtain ⟨n, whole⟩ := Option.isSome_iff_exists.1 printable
      have whole' := to_int_of_same close whole
      simp only [Expr.infixAt, writtenNumber, Scalar.plainText, whole, whole',
        whole_numbers.negative whole, whole_numbers.negative whole']
  | var name => exact fun _ => rfl
  | binary op left right sameLeft sameRight =>
      intro floor
      simp only [Expr.infixAt, sameLeft printable.2.1, sameRight printable.2.2]
  | signed op inner sameInner | call name inner sameInner =>
      intro floor
      simp only [Expr.infixAt, sameInner printable.2]

/-- What is read again is the tree itself where no number had to be renamed. -/
theorem same_iff_finite (textual : tree.Textual) (same : tree'.same tree.renamed = true) :
    tree'.same tree = true ↔ tree.AllFinite := by
  induction tree generalizing tree' with
  | missing | marked op operand inner => cases textual
  | num value =>
      rcases written_cases textual with ⟨whole, integer⟩ | rfl
      · rw [Expr.renamed, integer] at same
        exact iff_of_true same (finite_of_whole integer)
      · have named : tree'.same (.var "inf") = true := same
        cases Expr.matches_of_same named with
        | var =>
            exact iff_of_false Bool.false_ne_true (Bool.eq_false_iff.1 infinite_not_finite)
  | var name => exact iff_of_true same trivial
  | binary op lhs rhs left right =>
      cases Expr.matches_of_same same with
      | binary op sameLeft sameRight =>
          simp only [Expr.same, left textual.2.1 sameLeft.same, right textual.2.2 sameRight.same,
            Expr.AllFinite, Bool.and_eq_true, beq_self_eq_true, true_and]
  | signed op operand inner | call name operand inner =>
      cases Expr.matches_of_same same
      rename_i sameInner
      simp only [Expr.same, inner textual.2 sameInner.same, Expr.AllFinite, Bool.and_eq_true,
        beq_self_eq_true, true_and]

end

namespace Grammar

theorem textual_numeral {text : String} (nonempty : text ≠ "")
    (plain : ∀ c ∈ text.toList, Text.isAsciiDigit c = true) :
    (Phrase.numeral text : Expr Float).Textual := by
  have read := read_digits plain (by simpa using nonempty)
  rw [String.ofList_toList] at read
  have reads : Scalar.read? text = some (Numeral.magnitude (digitsValue text.toList) 0) :=
    congrArg (Option.map Numeral.toFloat) read
  rw [Phrase.numeral, reads]
  exact ⟨_, rfl⟩

theorem textual_tree {phrase : Phrase (.chain .sum)}
    (sound : ∀ lexeme ∈ phrase.yield, lexeme.Sound) : (phrase.tree : Expr Float).Textual := by
  refine tree_property (fun op lhs rhs known left right => ⟨known, left, right⟩)
    (fun op operand known inner => ⟨known, inner⟩) fun lexeme inside => ⟨?_, ?_⟩
  · intro number
    obtain ⟨nonempty, plain⟩ := (sound lexeme inside).1 number
    exact textual_numeral nonempty plain
  · intro identifier
    have named := (sound lexeme inside).2 identifier
    exact ⟨named, fun arg textual => ⟨named, textual⟩⟩

end Grammar

theorem textual_of_parse {text : String} {tree : Expr Float} (parsed : parse text = .ok tree) :
    tree.Textual ∧ tree.depth ≤ depthLimit := by
  obtain ⟨lexemes, scanned, parsed⟩ := bind_eq_ok.1 parsed
  obtain ⟨ended, sound⟩ := sound_lexemes scanned
  obtain ⟨passage, same⟩ : ∃ passage,
      (parseLexemes lexemes (some (Scanner.linesOf text)) : Except Fault (Expr Float)) =
        (run passage ⟨beforeEnd lexemes, 0, 0⟩).1 := parse_lexemes_eq ended
  rw [same] at parsed
  have before : ∀ lexeme ∈ beforeEnd lexemes, lexeme.Sound :=
    fun lexeme member => sound lexeme ((List.takeWhile_prefix _).subset member)
  obtain ⟨phrase, yields, -, shallow, rfl⟩ :=
    (run_ok fun lexeme member => (before lexeme member).readable).1 parsed
  refine ⟨?_, shallow⟩
  rw [← yields] at before
  exact textual_tree before

theorem parse_name {name : String} (named : IsName name) :
    parse name = .ok (.var name : Expr Float) := by
  have scans : Scanner.Scans name.toList [(.identifier, name)] := by
    simpa using Scanner.scans_name named.1 named.2.1 named.2.2
  have stands : Stands .factor [(.identifier, name)] (.var name : Expr Float) 0 :=
    stands_name named.ne_empty
  obtain ⟨result, parsed, same⟩ := parse_of_stands scans (stands.bare.chained_term .sum)
    (Nat.zero_le _) (by rw [Expr.depth_eq_height]; exact Nat.le_add_left 1 _)
  cases Expr.matches_of_same same
  exact parsed

/-- The digits of a number beyond the doubles are read as the infinity. -/
theorem parse_beyond {digits : List Char} (nonempty : digits ≠ [])
    (plain : ∀ c ∈ digits, Text.isAsciiDigit c = true)
    (beyond : Numeral.magnitude (digitsValue digits) 0 = infinite) :
    parse (String.ofList digits) = .ok (.num infinite : Expr Float) := by
  have scans : Scanner.Scans (String.ofList digits).toList [(.number, String.ofList digits)] := by
    simpa using Scanner.scans_digits nonempty plain
  have reads : Scalar.read? (String.ofList digits) = some infinite := by
    rw [← beyond]
    exact congrArg (Option.map Numeral.toFloat) (read_digits plain nonempty)
  have stands : Stands .factor [(.number, String.ofList digits)] (.num infinite : Expr Float) 0 :=
    stands_numeral reads (show Scalar.same infinite infinite = true from rfl)
  obtain ⟨result, parsed, same⟩ := parse_of_stands scans (stands.bare.chained_term .sum)
    (Nat.zero_le _) (by rw [Expr.depth_eq_height]; exact Nat.le_add_left 1 _)
  cases Expr.matches_of_same same with
  | num close =>
      rcases written_cases (textual_of_parse parsed).1 with ⟨whole, integer⟩ | rfl
      · have integer := to_int_of_same (same_symm close) integer
        rw [infinite_not_whole] at integer
        cases integer
      · exact parsed

/-- A text that parses is written again; what is written parses and is written in the same
way, and it parses to the same tree exactly if no run of digits was beyond the doubles. -/
theorem written_parses_again {text : String} {tree : Expr Float} (parsed : parse text = .ok tree) :
    ∃ written again, tree.toInfix = .ok written ∧ parse written = .ok again ∧
      again.toInfix = .ok written ∧ (again.same tree = true ↔ tree.AllFinite) := by
  obtain ⟨textual, shallow⟩ := textual_of_parse parsed
  have printable := printable_renamed textual
  have numbers : WholeNumbers Float := whole_numbers
  obtain ⟨written, writes, scans⟩ := infix_scans numbers printable freePriority
  have stands := (placed_of_printable numbers printable).free
  rw [Expr.depth_eq_height] at shallow
  rw [desugar_renamed textual, Expr.height_renamed] at stands
  obtain ⟨again, parsedAgain, same⟩ := parse_of_stands scans stands
    (Nat.le_trans (Nat.sub_le _ _) shallow) (by rwa [Expr.depth_eq_height, Expr.height_renamed])
  refine ⟨written, again, ?_, parsedAgain, ?_, same_iff_finite textual same⟩
  · exact (infix_renamed textual freePriority).symm.trans writes
  · exact (infix_of_same printable same freePriority).trans writes

theorem written_parses_again_of_product :
    ∃ tree again : Expr Float, parse "((2))*(x+f(010))" = .ok tree ∧
      tree.toInfix = .ok "2*(x + f(10))" ∧ parse "2*(x + f(10))" = .ok again ∧
      again.toInfix = .ok "2*(x + f(10))" ∧ (again.same tree = true ↔ tree.AllFinite) := by
  have answers : ((do
      let tree : Expr Float ← parse "((2))*(x+f(010))"
      tree.toInfix) : Except Fault String).toOption = some "2*(x + f(10))" := by
    decide +kernel
  simp only [to_option_eq_some, bind_eq_ok] at answers
  obtain ⟨tree, parsed, writes⟩ := answers
  obtain ⟨written, again, writes', rest⟩ := written_parses_again parsed
  obtain rfl : written = "2*(x + f(10))" := Except.ok.inj (writes'.symm.trans writes)
  exact ⟨tree, again, parsed, writes, rest⟩

/-- Two followed by 308 zeros is read as the infinity, which is written as a name. -/
theorem infinite_parses_to_name :
    parse (String.ofList ('2' :: List.replicate 308 '0')) = .ok (.num infinite : Expr Float) ∧
      (.num infinite : Expr Float).toInfix = .ok "inf" ∧
      parse "inf" = .ok (.var "inf" : Expr Float) ∧
      (.var "inf" : Expr Float).same (.num infinite) = false := by
  refine ⟨parse_beyond nofun ?_ ?_, rfl, parse_name (by decide), rfl⟩
  · intro c member
    rcases List.mem_cons.1 member with rfl | zero
    · decide
    · rw [List.eq_of_mem_replicate zero]
      decide
  · have beyond : Scalar.toInt? (Numeral.magnitude
        (digitsValue ('2' :: List.replicate 308 '0')) 0) = none := by decide +kernel
    rcases magnitude_cases (digitsValue ('2' :: List.replicate 308 '0')) with ⟨whole, integer⟩ | same
    · rw [beyond] at integer
      cases integer
    · exact same

end Fluxion
