import Fluxion.Proofs.Decimal.Magnitude
import Fluxion.Proofs.Expr.Binding
import Fluxion.Proofs.Notation.Spelled

/-!
Texts that are not read again. A run that starts with a digit must consist of digits, but a number
that is not whole is written with a point or an exponent mark in the run of its first digits. Main
statement: a tree of finite numbers whose names and operators can be read has a text, which scans
to the lexemes of the tree if all of its numbers are whole; otherwise the scanner refuses it, and
what it complains of is a run that is not a number.
-/

namespace Fluxion

open Outcome Scanner Text

namespace Scanner

/-- Somewhere in the text is a run that starts with a digit and is not a number, with nothing
that the scanner complains of in front of it. -/
def Refused (text : List Char) : Prop :=
  ∀ lines rest, Breaks rest → ∀ line column, ∃ site run,
    (⟨text ++ rest, line, column⟩ : Scanner).lexemes lines =
      .error (.located .lexical site (.notANumber run))

section

variable {first second text : List Char} {spellings : List Spelling} {c : Char}

theorem Refused.append (refused : Refused first)
    (breaks : ∀ rest, Breaks rest → Breaks (second ++ rest)) : Refused (first ++ second) := by
  intro lines rest ends line column
  rw [List.append_assoc]
  exact refused lines (second ++ rest) (breaks rest ends) line column

theorem Scans.append_refused (scans : Scans first spellings) (refused : Refused second)
    (breaks : ∀ rest, Breaks rest → Breaks (second ++ rest)) : Refused (first ++ second) := by
  intro lines rest ends line column
  obtain ⟨read, line', column', -, scanned⟩ :=
    scans lines (second ++ rest) (breaks rest ends) line column
  obtain ⟨site, run, failed⟩ := refused lines rest ends line' column'
  refine ⟨site, run, ?_⟩
  rw [List.append_assoc, scanned, failed]
  rfl

theorem Refused.key_cons (key : isKey c = true) (refused : Refused text) :
    Refused (c :: text) := by
  intro lines rest ends line column
  obtain ⟨site, run, failed⟩ := refused lines rest ends line (column + 1)
  refine ⟨site, run, ?_⟩
  rw [List.cons_append, lexemes_of_read (read_key key _ line column)
    (beq_false_of_ne (key_not_end c)), failed]
  rfl

theorem Refused.gap_cons (refused : Refused text) : Refused (' ' :: text) := by
  intro lines rest ends line column
  rw [List.cons_append, lexemes_gap]
  exact refused lines rest ends line (column + 1)

/-- Digits are no number if another identifier character carries their run on. -/
theorem refused_digits {digits more : List Char} (nonempty : digits ≠ [])
    (plain : ∀ d ∈ digits, isAsciiDigit d = true) (member : isIdentifierChar c = true)
    (notDigit : isAsciiDigit c = false) : Refused (digits ++ c :: more) := by
  intro lines rest ends line column
  obtain ⟨d, tail, rfl⟩ := List.exists_cons_of_ne_nil nonempty
  have digit := plain d (by simp)
  have first := is_identifier_char_of_is_ascii_digit d digit
  let s : Scanner := ⟨d :: (tail ++ c :: more ++ rest), line, column⟩
  have starts : s.skipBlanks = s :=
    skip_blanks_of_not_blank (not_blank_of_identifier_char first)
  have inside : c ∈ s.run := by
    have members : ∀ e ∈ d :: tail, isIdentifierChar e = true :=
      fun e within => is_identifier_char_of_is_ascii_digit e (plain e within)
    have split : s.rest = (d :: tail) ++ c :: (more ++ rest) := by simp [s]
    rw [run, split, List.takeWhile_append_of_pos members, List.takeWhile_cons_of_pos member]
    simp
  have mixed : s.run.all isAsciiDigit = false := by
    rw [List.all_eq_false]
    exact ⟨c, inside, by simp [notDigit]⟩
  have read : s.read = .error (.run s.run) := by
    simp only [Scanner.read, s, digit, if_true]
    exact if_neg (by rw [mixed]; exact Bool.false_ne_true)
  exact ⟨_, _, lexemes_of_defect (starts.symm ▸ read)⟩

end

theorem Refused.parse {α : Type} [Scalar α] {text : String} (refused : Refused text.toList) :
    ∃ site run, (parse text : Except Fault (Expr α)) =
      .error (.located .lexical site (.notANumber run)) := by
  obtain ⟨site, run, failed⟩ := refused (linesOf text) [] breaks_nil 0 0
  refine ⟨site, run, ?_⟩
  rw [List.append_nil] at failed
  rw [Fluxion.parse, lexemesOf, ofText, failed]
  rfl

end Scanner

namespace Decimal

/-- The text of digits on a scale starts with some of the digits, and no digit comes next. -/
theorem magnitude_splits (layout : Layout) (s : Scaled) : ∃ digits c more,
    layout.magnitude s = digits ++ c :: more ∧ digits ≠ [] ∧
      (∀ d ∈ digits, isAsciiDigit d = true) ∧ (c = '.' ∨ c = 'e') := by
  have plain : ∀ d ∈ Nat.toDigits 10 s.digits, isAsciiDigit d = true :=
    fun _ => ascii_digit_of_mem_to_digits
  have zero : isAsciiDigit '0' = true := by decide
  have front (count : Nat) : (Nat.toDigits 10 s.digits).take (count + 1) ≠ [] := by simp
  unfold Layout.magnitude
  generalize Nat.toDigits 10 s.digits = digits at plain front
  simp only
  generalize s.exponent + digits.length - 1 = leading
  split
  · cases leading with
    | ofNat n =>
        let filler := List.replicate (n + 1 - (digits.take (n + 1)).length) '0'
        refine ⟨digits.take (n + 1) ++ filler, '.', _, rfl,
          List.append_ne_nil_of_left_ne_nil (front n) _, ?_, .inl rfl⟩
        intro d member
        rcases List.mem_append.1 member with taken | filled
        · exact plain d (List.mem_of_mem_take taken)
        · rw [List.eq_of_mem_replicate filled]
          exact zero
    | negSucc n =>
        exact ⟨['0'], '.', _, rfl, List.cons_ne_nil _ _, by simpa using zero, .inl rfl⟩
  · have first : ∀ d ∈ digits.take 1, isAsciiDigit d = true :=
      fun d member => plain d (List.mem_of_mem_take member)
    by_cases single : digits.drop 1 = []
    · simp only [Layout.marked, if_pos single, List.append_nil]
      exact ⟨digits.take 1, 'e', _, rfl, front 0, first, .inr rfl⟩
    · simp only [Layout.marked, if_neg single, List.append_assoc, List.cons_append]
      exact ⟨digits.take 1, '.', _, rfl, front 0, first, .inl rfl⟩

theorem refused_plain_text {x : Float} (finite : Scalar.isFinite x = true)
    (broken : Scalar.toInt? x = none) : Scanner.Refused (Scalar.plainText x).toList := by
  have plain : Scalar.plainText x = Layout.standard.float x := by
    rw [Scalar.plainText, broken]
    rfl
  rw [plain, Layout.float]
  cases value : Dyadic.ofFloat? x with
  | none =>
      change x.toModel.unpack.isFinite = true at finite
      rw [not_finite_of_no_value value] at finite
      cases finite
  | some d =>
      obtain ⟨digits, c, more, splits, nonempty, digit, other⟩ :=
        magnitude_splits Layout.standard (shortest d)
      have refused : Scanner.Refused (Layout.standard.magnitude (shortest d)) := by
        rw [splits]
        rcases other with rfl | rfl
        · exact refused_digits nonempty digit (by decide) (by decide)
        · exact refused_digits nonempty digit (by decide) (by decide)
      cases sign : d.negative with
      | false => simpa [sign] using refused
      | true => simpa [sign] using refused.key_cons (c := '-') (by decide)

end Decimal

namespace Expr

section

variable {α : Type}

/-- The tree has names that can be read, operators that exist and no markers. -/
def Legible (callable : String → Prop) : Expr α → Prop
  | missing | marked _ _ => False
  | num _ => True
  | var name => IsName name
  | binary op lhs rhs => op.isKnown = true ∧ lhs.Legible callable ∧ rhs.Legible callable
  | signed op operand => op.isKnown = true ∧ operand.Legible callable
  | call name arg => callable name ∧ arg.Legible callable

variable {callable callable' : String → Prop} {tree : Expr α}

theorem Legible.imp (legible : tree.Legible callable)
    (implies : ∀ name, callable name → callable' name) : tree.Legible callable' := by
  induction tree with
  | missing | marked op operand inner => exact legible
  | num value => trivial
  | var name => exact legible
  | binary op lhs rhs left right => exact ⟨legible.1, left legible.2.1, right legible.2.2⟩
  | signed op operand inner => exact ⟨legible.1, inner legible.2⟩
  | call name arg inner => exact ⟨implies name legible.1, inner legible.2⟩

variable [Scalar α]

def AllWhole (tree : Expr α) : Prop := tree.NumbersHold fun a => (Scalar.toInt? a).isSome = true

theorem printable_iff : tree.Printable ↔ tree.Legible IsName ∧ tree.AllWhole := by
  unfold AllWhole
  induction tree with
  | missing | marked op operand inner => simp [Printable, Legible]
  | num value => simp [Printable, Legible, NumbersHold]
  | var name => simp [Printable, Legible, NumbersHold]
  | binary op lhs rhs left right =>
      simp only [Printable, Legible, NumbersHold, left, right]
      tauto
  | signed op operand inner | call name operand inner =>
      simp only [Printable, Legible, NumbersHold, inner, and_assoc]

end

end Expr

theorem refused_bracket {needed : Bool} {text : String} (refused : Refused text.toList) :
    Refused (bracket needed "(" text ")").toList := by
  cases needed with
  | false => exact refused
  | true =>
      have inner : Refused (text.toList ++ [')']) :=
        refused.append fun _ _ => breaks_cons.2 (by decide)
      simpa [bracket] using inner.key_cons (c := '(') (by decide)

theorem refused_sign {op : SignOp} {text : String} (known : op.isKnown = true)
    (refused : Refused text.toList) : Refused (op.symbol ++ text).toList := by
  cases op with
  | plus => simpa [SignOp.symbol] using refused.key_cons (c := '+') (by decide)
  | minus => simpa [SignOp.symbol] using refused.key_cons (c := '-') (by decide)
  | other symbol => cases known

theorem refused_call {name text : String} (named : IsName name) (refused : Refused text.toList) :
    Refused (name ++ "(" ++ text ++ ")").toList := by
  have argument : Refused (bracket true "(" text ")").toList := refused_bracket refused
  have called : Scans name.toList [(.identifier, String.ofList name.toList)] :=
    scans_name named.1 named.2.1 named.2.2
  have whole := called.append_refused argument fun rest _ => by
    simpa [bracket, breaks_cons] using show isIdentifierChar '(' = false by decide
  simpa [bracket] using whole

theorem refused_joined {op : BinaryOp} {lhs rhs : String} (known : op.isKnown = true)
    (operand : Refused lhs.toList ∨
      (∃ spelled, Scans lhs.toList spelled) ∧ Refused rhs.toList) :
    Refused (Expr.joined op lhs rhs).toList := by
  have behind {second : List Char} (breaks : ∀ rest, Breaks rest → Breaks (second ++ rest))
      (keeps : Refused rhs.toList → Refused second) : Refused (lhs.toList ++ second) := by
    rcases operand with left | ⟨⟨spelled, scans⟩, right⟩
    · exact left.append breaks
    · exact scans.append_refused (keeps right) breaks
  have tight (c : Char) (key : isKey c = true) : Refused (lhs.toList ++ c :: rhs.toList) :=
    behind (fun _ _ => breaks_cons.2 (identifier_char_of_key key)) (·.key_cons key)
  have spaced (c : Char) (key : isKey c = true) :
      Refused (lhs.toList ++ ' ' :: c :: ' ' :: rhs.toList) :=
    behind (fun _ _ => breaks_cons.2 (by decide))
      fun right => (right.gap_cons.key_cons key).gap_cons
  cases op with
  | add => simpa [Expr.joined, BinaryOp.symbol] using spaced '+' (by decide)
  | sub => simpa [Expr.joined, BinaryOp.symbol] using spaced '-' (by decide)
  | mul => simpa [Expr.joined, BinaryOp.symbol] using tight '*' (by decide)
  | div => simpa [Expr.joined, BinaryOp.symbol] using tight '/' (by decide)
  | pow => simpa [Expr.joined, BinaryOp.symbol] using tight '^' (by decide)
  | other symbol => cases known

/-- A legible tree of finite numbers has a text, which is refused unless the numbers are whole. -/
theorem infix_refused {tree : Expr Float} (legible : tree.Legible IsName)
    (finite : tree.NumbersHold (Scalar.isFinite · = true)) :
    ∀ floor, ∃ text, tree.infixAt floor = .ok text ∧ (¬tree.AllWhole → Refused text.toList) := by
  induction tree with
  | missing | marked op operand inner => exact legible.elim
  | num value =>
      intro floor
      refine ⟨_, rfl, fun notWhole => refused_bracket (Decimal.refused_plain_text finite ?_)⟩
      exact Option.not_isSome_iff_eq_none.1 notWhole
  | var name => exact fun floor => ⟨name, rfl, fun notWhole => absurd trivial notWhole⟩
  | call name arg inner =>
      intro floor
      obtain ⟨text, written, refused⟩ := inner legible.2 finite freePriority
      refine ⟨name ++ "(" ++ text ++ ")", ?_, fun notWhole =>
        refused_call legible.1 (refused notWhole)⟩
      rw [Expr.infixAt, written]
      rfl
  | signed op operand inner =>
      intro floor
      obtain ⟨text, written, refused⟩ := inner legible.2 finite tightPriority
      refine ⟨bracket (floor != freePriority) "(" (op.symbol ++ text) ")", ?_, fun notWhole =>
        refused_bracket (refused_sign legible.1 (refused notWhole))⟩
      rw [Expr.infixAt, written]
      rfl
  | binary op lhs rhs left right =>
      intro floor
      obtain ⟨known, legibleLeft, legibleRight⟩ := legible
      obtain ⟨level, -, priority⟩ := BinaryOp.level_of_known known
      obtain ⟨textLeft, writtenLeft, refusedLeft⟩ := left legibleLeft finite.1 level.rank
      obtain ⟨textRight, writtenRight, refusedRight⟩ :=
        right legibleRight finite.2 (level.rank + 1)
      refine ⟨bracket ((level.rank : Int) < floor) "(" (Expr.joined op textLeft textRight) ")",
        ?_, fun notWhole => refused_bracket (refused_joined known ?_)⟩
      · rw [Expr.infixAt, priority, Outcome.ok_bind, writtenLeft, writtenRight]
        rfl
      -- what stands behind a left operand counts only if the scanner gets past that one
      by_cases wholeLeft : lhs.AllWhole
      · obtain ⟨text, written, scans⟩ := infix_scans Decimal.whole_numbers
          (Expr.printable_iff.2 ⟨legibleLeft, wholeLeft⟩) level.rank
        cases writtenLeft.symm.trans written
        exact .inr ⟨⟨_, scans⟩, refusedRight fun wholeRight => notWhole ⟨wholeLeft, wholeRight⟩⟩
      · exact .inl (refusedLeft wholeLeft)

end Fluxion
