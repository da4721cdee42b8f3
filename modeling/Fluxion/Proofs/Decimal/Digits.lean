import Fluxion.Decimal.Numeral
import Mathlib.Data.List.TakeWhile

/-!
Reading plain digits. A text of ASCII digits is a numeral without a sign, a point or
an exponent, and its value is that of the digits.
-/

namespace Fluxion.Decimal

open Fluxion.Text

theorem digit_bounds {c : Char} (digit : isAsciiDigit c = true) : 48 ≤ c.toNat ∧ c.toNat ≤ 57 := by
  simpa [isAsciiDigit, Char.le_def, UInt32.le_iff_toNat_le] using digit

theorem digit_ne {c other : Char} (digit : isAsciiDigit c = true)
    (outside : isAsciiDigit other = false) : c ≠ other := by
  rintro rfl
  rw [digit] at outside
  cases outside

theorem not_margin_of_digit {c : Char} (digit : isAsciiDigit c = true) : isMargin c = false := by
  have bounds := digit_bounds digit
  have vertical : (c.toNat == 0x0B) = false := beq_false_of_ne (by omega)
  have feed : (c.toNat == 0x0C) = false := beq_false_of_ne (by omega)
  have blank : (c == ' ') = false := beq_false_of_ne (digit_ne digit (by decide))
  have tab : (c == '\t') = false := beq_false_of_ne (digit_ne digit (by decide))
  have line : (c == '\n') = false := beq_false_of_ne (digit_ne digit (by decide))
  have carriage : (c == '\r') = false := beq_false_of_ne (digit_ne digit (by decide))
  simp only [isMargin, vertical, feed, blank, tab, line, carriage, Bool.or_false]

variable {digits : List Char}

theorem plain_of_digits (plain : ∀ c ∈ digits, isAsciiDigit c = true) :
    plainText? digits = some digits := by
  have ascii : digits.all (·.toNat < 128) = true := by
    rw [List.all_eq_true]
    intro c member
    have bounds := digit_bounds (plain c member)
    exact decide_eq_true (by omega)
  rw [plainText?, if_pos ascii]

theorem trim_margin_digits (plain : ∀ c ∈ digits, isAsciiDigit c = true) :
    trimMargin digits = digits := by
  have keeps (text : List Char) (all : ∀ c ∈ text, isAsciiDigit c = true) :
      text.dropWhile isMargin = text := by
    cases text with
    | nil => rfl
    | cons c rest => exact List.dropWhile_cons_of_neg (by simp [not_margin_of_digit (all c (by simp))])
  rw [trimMargin, keeps digits plain, keeps, List.reverse_reverse]
  intro c member
  exact plain c (List.mem_reverse.1 member)

theorem drop_underscores_digits (plain : ∀ c ∈ digits, isAsciiDigit c = true)
    (afterDigit : Bool) : dropUnderscores? afterDigit digits = some digits := by
  induction digits generalizing afterDigit with
  | nil => rfl
  | cons c rest induction =>
      have digit : c ≠ '_' := digit_ne (plain c (by simp)) (by decide)
      rw [dropUnderscores?, if_neg digit,
        induction (fun d member => plain d (List.mem_cons_of_mem c member))]
      rfl

theorem take_sign_digits (plain : ∀ c ∈ digits, isAsciiDigit c = true) :
    Numeral.takeSign digits = (false, digits) := by
  cases digits with
  | nil => rfl
  | cons c rest =>
      have notMinus : c ≠ '-' := digit_ne (plain c (by simp)) (by decide)
      have notPlus : c ≠ '+' := digit_ne (plain c (by simp)) (by decide)
      unfold Numeral.takeSign
      split <;> simp_all

theorem decimal_of_digits (plain : ∀ c ∈ digits, isAsciiDigit c = true) (nonempty : digits ≠ []) :
    Numeral.decimal? false digits = some (.decimal false (digitsValue digits) 0) := by
  have whole : digits.takeWhile isAsciiDigit = digits := List.takeWhile_eq_self_iff.2 plain
  have behind : digits.dropWhile isAsciiDigit = [] := List.dropWhile_eq_nil_iff.2 plain
  simp [Numeral.decimal?, whole, behind, nonempty, Numeral.exponent?]

theorem to_lower_digit {c : Char} (digit : isAsciiDigit c = true) : c.toLower = c := by
  have bounds := digit_bounds digit
  have digits : ∀ n < 58, 48 ≤ n → (Char.ofNat n).toLower = Char.ofNat n := by decide
  rw [← Char.ofNat_toNat c]
  exact digits c.toNat (by omega) bounds.1

theorem unsigned_of_digits (plain : ∀ c ∈ digits, isAsciiDigit c = true) (nonempty : digits ≠ []) :
    Numeral.unsigned? false digits = some (.decimal false (digitsValue digits) 0) := by
  have lower : digits.map Char.toLower = digits := by
    rw [List.map_congr_left fun c member => to_lower_digit (plain c member), List.map_id']
  have notWord {word : List Char} (spelled : word.all isAsciiDigit = false) : digits ≠ word := by
    rintro rfl
    rw [List.all_eq_true.2 plain] at spelled
    cases spelled
  have notInfinite : ¬ (digits = "inf".toList ∨ digits = "infinity".toList) := by
    rintro (word | word)
    · exact notWord (by decide) word
    · exact notWord (by decide) word
  rw [Numeral.unsigned?, lower, if_neg notInfinite, if_neg (notWord (by decide))]
  exact decimal_of_digits plain nonempty

/-- A text of digits is read as the number that they spell. -/
theorem read_digits (plain : ∀ c ∈ digits, isAsciiDigit c = true) (nonempty : digits ≠ []) :
    Numeral.read? (String.ofList digits) = some (.decimal false (digitsValue digits) 0) := by
  simp only [Numeral.read?, String.toList_ofList, plain_of_digits plain, Option.bind_eq_bind,
    Option.bind_some, trim_margin_digits plain, drop_underscores_digits plain,
    take_sign_digits plain, unsigned_of_digits plain nonempty]

theorem ascii_digit_of_mem_to_digits {n : Nat} {c : Char} (member : c ∈ Nat.toDigits 10 n) :
    isAsciiDigit c = true := by
  have digit := Nat.isDigit_of_mem_toDigits (by decide) (by decide) member
  simpa [Char.isDigit, isAsciiDigit, Char.le_def] using digit

theorem digits_value (n : Nat) : digitsValue (Nat.toDigits 10 n) = n := by
  rw [digitsValue, ← Nat.ofDigitChars_eq_foldl, Nat.ofDigitChars_ten_toDigits]

theorem read_to_digits (n : Nat) :
    Numeral.read? (String.ofList (Nat.toDigits 10 n)) = some (.decimal false n 0) := by
  rw [read_digits (fun _ => ascii_digit_of_mem_to_digits) Nat.toDigits_ne_nil, digits_value]

end Fluxion.Decimal
