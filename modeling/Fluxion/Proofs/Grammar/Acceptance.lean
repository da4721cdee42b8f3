import Fluxion.Proofs.Decimal.Digits
import Fluxion.Proofs.Expr.Height
import Fluxion.Proofs.Grammar.Reads
import Fluxion.Scalar.Double

/-!
What the parser accepts. A list of lexemes has a tree exactly if the lexemes in front
of the first end marker have a derivation within the two limits, and then the tree is
the one that the derivation denotes.
-/

namespace Fluxion

open Grammar Outcome Text

namespace Grammar

variable {α : Type} [Scalar α] {passage : Passage}

theorem whole_ok {before after : Cursor} {tree : Expr α} :
    whole passage before = .ok tree after ↔
      expression passage (nestingLimit - before.nesting) before = .ok tree after ∧
        after.ahead = [] ∧ tree.depth ≤ depthLimit := by
  rw [whole, get_bind, bind_ok_iff]
  constructor
  · rintro ⟨root, between, read, done⟩
    rw [get_bind] at done
    cases ahead : between.ahead with
    | cons lexeme rest =>
        rw [ahead] at done
        cases done
    | nil =>
        simp only [ahead] at done
        split at done
        · cases done
        · rename_i shallow
          obtain ⟨rfl, rfl⟩ := pure_ok_iff.1 done
          exact ⟨read, ahead, by omega⟩
  · rintro ⟨read, ahead, shallow⟩
    refine ⟨tree, after, read, ?_⟩
    rw [get_bind]
    simp only [ahead]
    rw [if_neg (by omega)]
    rfl

/-- A parse from the start of a passage gives the trees of its derivations. -/
theorem run_ok {lexemes : List Lexeme} {tree : Expr α}
    (readable : ∀ lexeme ∈ lexemes, Readable α lexeme) :
    (run passage ⟨lexemes, 0, 0⟩).1 = .ok tree ↔
      ∃ phrase : Phrase (.chain .sum), phrase.yield = lexemes ∧ phrase.nesting ≤ nestingLimit ∧
        (phrase.tree : Expr α).depth ≤ depthLimit ∧ tree = phrase.tree := by
  have reads : Reads (expression passage nestingLimit : Parse (Expr α)) (.chain .sum)
      nestingLimit := reads_expression passage nestingLimit
  have returns : (run passage ⟨lexemes, 0, 0⟩).1 = .ok tree ↔
      ∃ after, whole passage ⟨lexemes, 0, 0⟩ = .ok tree after := by
    unfold run EStateM.run
    cases (whole passage : Parse (Expr α)) ⟨lexemes, 0, 0⟩ <;> simp
  rw [returns]
  constructor
  · rintro ⟨after, done⟩
    obtain ⟨read, ahead, shallow⟩ := whole_ok.1 done
    obtain ⟨phrase, low, rfl, covers⟩ := reads.sound read
    have yield : lexemes = phrase.yield := by
      rw [← List.append_nil phrase.yield, ← ahead]
      exact covers.ahead
    exact ⟨phrase, yield.symm, low, shallow, rfl⟩
  · rintro ⟨phrase, rfl, low, shallow, rfl⟩
    have covers : Covers phrase.yield ⟨phrase.yield, 0, 0⟩ ⟨[], phrase.yield.length, 0⟩ :=
      ⟨(List.append_nil _).symm, (Nat.zero_add _).symm, rfl⟩
    exact ⟨_, whole_ok.2 ⟨reads.complete low readable covers (stops_nil _), rfl, shallow⟩⟩

end Grammar

def beforeEnd (lexemes : List Lexeme) : List Lexeme := lexemes.takeWhile (!·.isEnd)

theorem parse_lexemes_eq {α : Type} [Scalar α] {lexemes : List Lexeme}
    {lines : Option (List String)} (ended : lexemes.getLast?.any Lexeme.isEnd = true) :
    ∃ passage, (parseLexemes lexemes lines : Except Fault (Expr α)) =
      (run passage ⟨beforeEnd lexemes, 0, 0⟩).1 := by
  unfold parseLexemes Passage.ofLexemes
  cases last : lexemes.getLast? with
  | none => simp [last] at ended
  | some lexeme =>
      have isEnd : lexeme.isEnd = true := by simpa [last] using ended
      simp only [isEnd, if_true]
      exact ⟨_, rfl⟩

theorem readable_double {lexeme : Lexeme}
    (digits : lexeme.kind = .number →
      lexeme.text ≠ "" ∧ ∀ c ∈ lexeme.text.toList, isAsciiDigit c = true)
    (named : lexeme.kind = .identifier → lexeme.text ≠ "") : Readable Float lexeme := by
  refine ⟨fun number => ?_, named⟩
  obtain ⟨nonempty, plain⟩ := digits number
  have nonempty : lexeme.text.toList ≠ [] := by simpa using nonempty
  have read := Decimal.read_digits plain nonempty
  rw [String.ofList_toList] at read
  exact ⟨_, congrArg (Option.map Decimal.Numeral.toFloat) read⟩

/-- The parser accepts exactly its grammar and builds exactly its tree, and a list of
lexemes has at most one derivation. -/
theorem parse_lexemes_iff_derivation {lexemes : List Lexeme} {lines : Option (List String)}
    (ended : lexemes.getLast?.any Lexeme.isEnd = true)
    (digits : ∀ lexeme ∈ lexemes, lexeme.kind = .number →
      lexeme.text ≠ "" ∧ ∀ c ∈ lexeme.text.toList, isAsciiDigit c = true)
    (named : ∀ lexeme ∈ lexemes, lexeme.kind = .identifier → lexeme.text ≠ "") :
    (∀ tree : Expr Float, parseLexemes lexemes lines = .ok tree ↔
      ∃ phrase : Phrase (.chain .sum), phrase.yield = beforeEnd lexemes ∧
        phrase.nesting ≤ nestingLimit ∧ (phrase.tree : Expr Float).depth ≤ depthLimit ∧
        tree = phrase.tree) ∧
    ∀ phrase phrase' : Phrase (.chain .sum), phrase.yield = beforeEnd lexemes →
      phrase'.yield = beforeEnd lexemes → phrase = phrase' := by
  constructor
  · intro tree
    obtain ⟨passage, same⟩ : ∃ passage, (parseLexemes lexemes lines : Except Fault (Expr Float)) =
        (run passage ⟨beforeEnd lexemes, 0, 0⟩).1 := parse_lexemes_eq ended
    rw [same]
    refine run_ok fun lexeme member => ?_
    have member := (List.takeWhile_prefix _).subset member
    exact readable_double (digits lexeme member) (named lexeme member)
  · intro phrase phrase' yields yields'
    have same : phrase.yield ++ [] = phrase'.yield ++ [] := by rw [yields, yields']
    exact (phrase.unique phrase' same (stops_nil _) (stops_nil _)).1

/-- The lexemes of `x ^ 2` are accepted, and nothing but their power is built. -/
theorem parse_lexemes_iff_derivation_of_power :
    ∃ phrase : Phrase (.chain .sum),
      phrase.yield = [⟨.identifier, "x", 0, 0⟩, ⟨.operator, "^", 0, 2⟩, ⟨.number, "2", 0, 4⟩] ∧
      parseLexemes [⟨.identifier, "x", 0, 0⟩, ⟨.operator, "^", 0, 2⟩, ⟨.number, "2", 0, 4⟩,
        ⟨.endMarker, "", 0, 5⟩] none = .ok (phrase.tree : Expr Float) := by
  let two : Phrase (operandOf .power) := .bare (.number ⟨⟨.number, "2", 0, 4⟩, rfl⟩)
  let power : Operator .power := ⟨⟨⟨.operator, "^", 0, 2⟩, rfl⟩, .pow, rfl, rfl⟩
  let base : Phrase (operandOf .power) := .bare (.identifier ⟨⟨.identifier, "x", 0, 0⟩, rfl⟩)
  let product : Phrase (operandOf .product) := .chain base (.next power two (.done .power))
  let sum : Phrase (operandOf .sum) := .chain product (.done .product)
  let phrase : Phrase (.chain .sum) := .chain sum (.done .sum)
  have shallow : (phrase.tree : Expr Float).depth ≤ depthLimit := by
    have leaf : (Phrase.numeral "2" : Expr Float).height = 1 := by
      unfold Phrase.numeral
      split <;> rfl
    rw [Expr.depth_eq_height]
    show max 1 (Phrase.numeral "2" : Expr Float).height + 1 ≤ depthLimit
    rw [leaf]
    decide
  refine ⟨phrase, rfl, ((parse_lexemes_iff_derivation rfl ?_ ?_).1 _).2
    ⟨phrase, rfl, by decide, shallow, rfl⟩⟩
  · simp [isAsciiDigit]
  · decide

end Fluxion
