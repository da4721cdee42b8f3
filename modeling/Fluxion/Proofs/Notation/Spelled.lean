import Fluxion.Grammar.Parse
import Fluxion.Notation.Infix
import Fluxion.Proofs.Decimal.Digits
import Fluxion.Proofs.Grammar.Phrase
import Fluxion.Proofs.Lexeme.Scans
import Fluxion.Proofs.Outcome
import Fluxion.Proofs.Scalar.Whole

/-!
The lexemes of an infix text. A tree is printable if its operators have a notation,
its names are identifiers and its numbers are whole, whatever their sign. The text of
a printable tree scans to lexemes that are given here by recursion on the tree, with
the same brackets that the writer puts.
-/

namespace Fluxion

open Outcome Scanner Text

/-- The name is one run of identifier characters that does not start with a digit. -/
def IsName (name : String) : Prop :=
  name.toList ≠ [] ∧ (∀ c ∈ name.toList, isIdentifierChar c = true) ∧
    ∀ c ∈ name.toList.head?, isAsciiDigit c = false

instance (name : String) : Decidable (IsName name) :=
  decidable_of_iff (name.toList ≠ [] ∧ name.toList.all isIdentifierChar = true ∧
    name.toList.head?.all (!isAsciiDigit ·) = true)
    (by simp only [IsName, List.all_eq_true, Option.all_eq_true, Bool.not_eq_true',
      Option.mem_def])

theorem IsName.ne_empty {name : String} (named : IsName name) : name ≠ "" := by
  rintro rfl
  exact named.1 rfl

namespace Expr

variable {α : Type} [Scalar α]

/-- Infix notation has a text for the tree that the grammar can read. -/
def Printable : Expr α → Prop
  | missing | marked _ _ => False
  | num value => (Scalar.toInt? value).isSome = true
  | var name => IsName name
  | binary op lhs rhs => op.isKnown = true ∧ lhs.Printable ∧ rhs.Printable
  | signed op operand => op.isKnown = true ∧ operand.Printable
  | call name arg => IsName name ∧ arg.Printable

def opening : Spelling := (.opening, "(")

def closing : Spelling := (.closing, ")")

def numeral (n : Nat) : Spelling := (.number, String.ofList (Nat.toDigits 10 n))

def enclosed (needed : Bool) (inner : List Spelling) : List Spelling :=
  if needed then opening :: (inner ++ [closing]) else inner

def numberSpellings (negative : Bool) (n : Int) : List Spelling :=
  if negative then [(.operator, "-"), numeral n.natAbs] else [numeral n.natAbs]

/-- The lexemes of the text of a tree at a place with this lowest bare priority. -/
def spellings (floor : Int) : Expr α → List Spelling
  | missing | marked _ _ => []
  | num value =>
      match Scalar.toInt? value with
      | some n => enclosed (Scalar.isNegative value && floor != freePriority)
          (numberSpellings (Scalar.isNegative value) n)
      | none => []
  | var name => [(.identifier, name)]
  | call name arg =>
      (.identifier, name) :: opening :: (arg.spellings freePriority ++ [closing])
  | signed op operand =>
      enclosed (floor != freePriority) ((.operator, op.symbol) :: operand.spellings tightPriority)
  | binary op lhs rhs =>
      match op.level? with
      | some level => enclosed (level.rank < floor)
          (lhs.spellings level.rank ++ (.operator, op.symbol) :: rhs.spellings (level.rank + 1))
      | none => []

end Expr

theorem scans_numeral (n : Nat) : Scans (Nat.toDigits 10 n) [Expr.numeral n] :=
  scans_digits Nat.toDigits_ne_nil fun _ member => Decimal.ascii_digit_of_mem_to_digits member

theorem scans_bracket {needed : Bool} {text : String} {spelled : List Spelling}
    (scans : Scans text.toList spelled) :
    Scans (bracket needed "(" text ")").toList (Expr.enclosed needed spelled) := by
  cases needed with
  | false => exact scans
  | true =>
      have close : Scans [')'] [Expr.closing] := Scans.key_cons (by decide) scans_nil
      have inner := scans.append close fun _ _ => breaks_cons.2 (by decide)
      have whole : Scans ('(' :: (text.toList ++ [')'])) (Expr.opening :: (spelled ++ [Expr.closing])) :=
        Scans.key_cons (by decide) inner
      simpa [bracket, Expr.enclosed] using whole

variable {α : Type} [Scalar α]

theorem plain_text_of_whole {value : α} {n : Int} (whole : Scalar.toInt? value = some n) :
    (Scalar.plainText value).toList =
      if n < 0 then '-' :: Nat.toDigits 10 n.natAbs else Nat.toDigits 10 n.natAbs := by
  have text : Scalar.plainText value = toString n := by rw [Scalar.plainText, whole]
  rw [text]
  cases n with
  | ofNat n => simp [Nat.repr, toString, Int.repr]
  | negSucc n => simp [Nat.repr, toString, Int.repr]

theorem scans_whole (numbers : WholeNumbers α) {value : α} {n : Int}
    (whole : Scalar.toInt? value = some n) :
    Scans (Scalar.plainText value).toList
      (Expr.numberSpellings (Scalar.isNegative value) n) := by
  rw [plain_text_of_whole whole, numbers.negative whole, Expr.numberSpellings]
  by_cases negative : n < 0
  · simp only [negative, if_true, decide_true]
    exact Scans.key_cons (by decide) (scans_numeral n.natAbs)
  · simp only [negative, if_false, decide_false, Bool.false_eq_true]
    exact scans_numeral n.natAbs

theorem scans_operator {c : Char} {text : List Char} {spelled : List Spelling}
    (key : isKey c = true) (kind : LexemeKind.ofKey c = .operator) (scans : Scans text spelled) :
    Scans (c :: text) ((.operator, String.ofList [c]) :: spelled) :=
  kind ▸ scans.key_cons key

theorem scans_joined {op : BinaryOp} {lhs rhs : String} {left right : List Spelling}
    (known : op.isKnown = true) (scansLeft : Scans lhs.toList left)
    (scansRight : Scans rhs.toList right) :
    Scans (Expr.joined op lhs rhs).toList (left ++ (.operator, op.symbol) :: right) := by
  have tight (c : Char) (key : isKey c = true) (kind : LexemeKind.ofKey c = .operator) :
      Scans (lhs.toList ++ c :: rhs.toList) (left ++ (.operator, String.ofList [c]) :: right) :=
    scansLeft.append (scans_operator key kind scansRight)
      fun _ _ => breaks_cons.2 (identifier_char_of_key key)
  have spaced (c : Char) (key : isKey c = true) (kind : LexemeKind.ofKey c = .operator) :
      Scans (lhs.toList ++ ' ' :: c :: ' ' :: rhs.toList)
        (left ++ (.operator, String.ofList [c]) :: right) :=
    scansLeft.append (scans_operator key kind scansRight.gap_cons).gap_cons
      fun _ _ => breaks_cons.2 (by decide)
  cases op with
  | add => simpa [Expr.joined, BinaryOp.symbol] using spaced '+' (by decide) rfl
  | sub => simpa [Expr.joined, BinaryOp.symbol] using spaced '-' (by decide) rfl
  | mul => simpa [Expr.joined, BinaryOp.symbol] using tight '*' (by decide) rfl
  | div => simpa [Expr.joined, BinaryOp.symbol] using tight '/' (by decide) rfl
  | pow => simpa [Expr.joined, BinaryOp.symbol] using tight '^' (by decide) rfl
  | other symbol => cases known

theorem scans_sign {op : SignOp} {text : String} {spelled : List Spelling}
    (known : op.isKnown = true) (scans : Scans text.toList spelled) :
    Scans (op.symbol ++ text).toList ((.operator, op.symbol) :: spelled) := by
  cases op with
  | plus => simpa [SignOp.symbol] using scans_operator (c := '+') (by decide) rfl scans
  | minus => simpa [SignOp.symbol] using scans_operator (c := '-') (by decide) rfl scans
  | other symbol => cases known

theorem scans_call {name text : String} {spelled : List Spelling} (named : IsName name)
    (scans : Scans text.toList spelled) :
    Scans (name ++ "(" ++ text ++ ")").toList
      ((.identifier, name) :: Expr.opening :: (spelled ++ [Expr.closing])) := by
  have argument : Scans (bracket true "(" text ")").toList (Expr.enclosed true spelled) :=
    scans_bracket scans
  have called : Scans name.toList [(.identifier, name)] := by
    simpa using scans_name named.1 named.2.1 named.2.2
  have whole := called.append argument fun rest _ => by
    simpa [bracket, breaks_cons] using show isIdentifierChar '(' = false by decide
  simpa [bracket, Expr.enclosed] using whole

theorem BinaryOp.level_of_known {op : BinaryOp} (known : op.isKnown = true) :
    ∃ level, op.level? = some level ∧ op.priority = .ok (level.rank : Int) := by
  cases op with
  | other symbol => cases known
  | _ => exact ⟨_, rfl, rfl⟩

/-- A printable tree has a text, which scans to its lexemes. -/
theorem infix_scans (numbers : WholeNumbers α) {tree : Expr α} (printable : tree.Printable) :
    ∀ floor, ∃ text, tree.infixAt floor = .ok text ∧
      Scans text.toList (tree.spellings floor) := by
  induction tree with
  | missing => cases printable
  | marked op operand => cases printable
  | num value =>
      intro floor
      obtain ⟨n, whole⟩ := Option.isSome_iff_exists.1 printable
      refine ⟨_, rfl, ?_⟩
      rw [Expr.spellings, whole]
      exact scans_bracket (scans_whole numbers whole)
  | var name =>
      intro floor
      refine ⟨name, rfl, ?_⟩
      simpa [Expr.spellings] using scans_name printable.1 printable.2.1 printable.2.2
  | call name arg induction =>
      intro floor
      obtain ⟨text, written, scans⟩ := induction printable.2 freePriority
      refine ⟨name ++ "(" ++ text ++ ")", ?_, scans_call printable.1 scans⟩
      rw [Expr.infixAt, written]
      rfl
  | signed op operand induction =>
      intro floor
      obtain ⟨text, written, scans⟩ := induction printable.2 tightPriority
      refine ⟨_, ?_, scans_bracket (scans_sign printable.1 scans)⟩
      rw [Expr.infixAt, written]
      rfl
  | binary op lhs rhs left right =>
      intro floor
      obtain ⟨known, printableLeft, printableRight⟩ := printable
      obtain ⟨level, placed, priority⟩ := BinaryOp.level_of_known known
      obtain ⟨textLeft, writtenLeft, scansLeft⟩ := left printableLeft level.rank
      obtain ⟨textRight, writtenRight, scansRight⟩ := right printableRight (level.rank + 1)
      refine ⟨bracket ((level.rank : Int) < floor) "(" (Expr.joined op textLeft textRight) ")", ?_, ?_⟩
      · rw [Expr.infixAt, priority, Outcome.ok_bind, writtenLeft, writtenRight]
        rfl
      · rw [Expr.spellings, placed]
        exact scans_bracket (scans_joined known scansLeft scansRight)

end Fluxion
