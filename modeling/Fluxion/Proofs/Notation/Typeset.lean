import Fluxion.Notation.Latex
import Fluxion.Proofs.Notation.Spelled

/-!
The lexemes of a LaTeX text, which no part of the engine reads. They are put together
from the end of the text, character by character, because what a letter or a digit
belongs to is decided by what stands behind it. A digit in front of a name multiplies,
as does the dot; braces are parentheses, and between two groups in braces there is a
fraction bar. Main statement: the texts that the writer puts together have the lexemes
of their parts, put together in the same way.
-/

namespace Fluxion

open Text

/-- The lexemes of the end of a text, and whether the text starts with the first of them. -/
structure Ending where
  touching : Bool
  lexemes : List Spelling

namespace Ending

def openingBrace : Spelling := (.opening, "\x7b")

def closingBrace : Spelling := (.closing, "\x7d")

def times : Spelling := (.operator, "*")

def bar : Spelling := (.operator, "/")

def addLetter (c : Char) : Ending → List Spelling
  | ⟨true, (.identifier, word) :: rest⟩ => (.identifier, String.ofList (c :: word.toList)) :: rest
  | ⟨_, lexemes⟩ => (.identifier, String.ofList [c]) :: lexemes

def addDigit (c : Char) : Ending → List Spelling
  | ⟨true, (.number, digits) :: rest⟩ => (.number, String.ofList (c :: digits.toList)) :: rest
  | ⟨true, (.identifier, word) :: rest⟩ =>
      (.number, String.ofList [c]) :: times :: (.identifier, word) :: rest
  | ⟨_, lexemes⟩ => (.number, String.ofList [c]) :: lexemes

def unbraced : List Spelling → List Spelling
  | _ :: name :: _ :: rest => name :: rest
  | lexemes => lexemes

/-- The word behind a backslash is a command, or a name that is written like one. -/
def addBackslash : List Spelling → List Spelling
  | (.identifier, word) :: rest =>
      if word = "cdot" then times :: rest
      else if word = "left" ∨ word = "right" ∨ word = "frac" then rest
      else if word = "operatorname" then unbraced rest
      else (.identifier, word) :: rest
  | lexemes => lexemes

def addClosingBrace (ending : Ending) : List Spelling :=
  if ending.touching ∧ ending.lexemes.head? = some openingBrace then
    closingBrace :: bar :: ending.lexemes
  else closingBrace :: ending.lexemes

def put (c : Char) (ending : Ending) : Ending :=
  if c = ' ' then ⟨false, ending.lexemes⟩
  else ⟨true,
    if c.isAlpha then ending.addLetter c
    else if isAsciiDigit c then ending.addDigit c
    else if c = '\\' then addBackslash ending.lexemes
    else if c = '\x7b' then openingBrace :: ending.lexemes
    else if c = '\x7d' then ending.addClosingBrace
    else (LexemeKind.ofKey c, String.ofList [c]) :: ending.lexemes⟩

def puts (text : String) (ending : Ending) : Ending := text.toList.foldr put ending

/-- The ending does not go on with anything in front of it. -/
inductive Apart : Ending → Prop
  | gap (lexemes : List Spelling) : Apart ⟨false, lexemes⟩
  | operator (symbol : String) (rest : List Spelling) : Apart ⟨true, (.operator, symbol) :: rest⟩
  | closing (text : String) (rest : List Spelling) : Apart ⟨true, (.closing, text) :: rest⟩

@[simp] theorem puts_append (text text' : String) (ending : Ending) :
    ending.puts (text ++ text') = (ending.puts text').puts text := by
  simp [puts]

theorem puts_of_list {chars : List Char} {ending : Ending} :
    ending.puts (String.ofList chars) = chars.foldr put ending := by
  simp [puts]

theorem put_letter {c : Char} (letter : c.isAlpha = true) (ending : Ending) :
    ending.put c = ⟨true, ending.addLetter c⟩ := by
  have notBlank : c ≠ ' ' := by
    rintro rfl
    exact absurd letter (by decide)
  rw [put, if_neg notBlank, if_pos letter]

theorem letter_of_digit {c : Char} (digit : isAsciiDigit c = true) : c.isAlpha = false := by
  have bounds := Decimal.digit_bounds digit
  have upper : c.isUpper = decide (65 ≤ c.toNat ∧ c.toNat ≤ 90) := rfl
  have lower : c.isLower = (decide (97 ≤ c.toNat) && decide (c.toNat ≤ 122)) := rfl
  have letter : c.isAlpha = (c.isUpper || c.isLower) := rfl
  rw [letter, upper, lower, decide_eq_false (by omega), decide_eq_false (by omega)]
  rfl

theorem put_digit {c : Char} (digit : isAsciiDigit c = true) (ending : Ending) :
    ending.put c = ⟨true, ending.addDigit c⟩ := by
  have notBlank : c ≠ ' ' := by
    rintro rfl
    exact absurd digit (by decide)
  have notLetter : ¬ c.isAlpha = true := by
    rw [letter_of_digit digit]
    exact Bool.false_ne_true
  rw [put, if_neg notBlank, if_neg notLetter, if_pos digit]

/-- Characters that begin a lexeme and carry it on are one lexeme. -/
theorem run_put {kind : LexemeKind} {run : List Char} {behind : Ending} {tail : List Spelling}
    (nonempty : run ≠ [])
    (begins : ∀ c ∈ run, behind.put c = ⟨true, (kind, String.ofList [c]) :: tail⟩)
    (carries : ∀ c ∈ run, ∀ text : String, put c ⟨true, (kind, text) :: tail⟩ =
      ⟨true, (kind, String.ofList (c :: text.toList)) :: tail⟩) :
    run.foldr put behind = ⟨true, (kind, String.ofList run) :: tail⟩ := by
  induction run with
  | nil => exact absurd rfl nonempty
  | cons c rest induction =>
      obtain ⟨begun, begins⟩ := List.forall_mem_cons.1 begins
      obtain ⟨carried, carries⟩ := List.forall_mem_cons.1 carries
      rw [List.foldr_cons]
      cases rest with
      | nil => exact begun
      | cons second rest =>
          rw [induction (List.cons_ne_nil _ _) begins carries, carried, String.toList_ofList]

theorem letters_put {letters : List Char} {behind : Ending} (nonempty : letters ≠ [])
    (alphabetic : ∀ c ∈ letters, c.isAlpha = true)
    (fresh : ∀ c, behind.addLetter c = (.identifier, String.ofList [c]) :: behind.lexemes) :
    letters.foldr put behind = ⟨true, (.identifier, String.ofList letters) :: behind.lexemes⟩ := by
  apply run_put nonempty
  · intro c member
    rw [put_letter (alphabetic c member), fresh]
  · intro c member text
    exact put_letter (alphabetic c member) _

/-- Digits are one number, in front of whatever the last of them is put. -/
theorem digits_put {digits : List Char} {behind : Ending} {tail : List Spelling}
    (nonempty : digits ≠ []) (plain : ∀ c ∈ digits, isAsciiDigit c = true)
    (fresh : ∀ c, behind.addDigit c = (.number, String.ofList [c]) :: tail) :
    digits.foldr put behind = ⟨true, (.number, String.ofList digits) :: tail⟩ := by
  apply run_put nonempty
  · intro c member
    rw [put_digit (plain c member), fresh]
  · intro c member text
    exact put_digit (plain c member) _

theorem Apart.letter {ending : Ending} (apart : ending.Apart) (c : Char) :
    ending.addLetter c = (.identifier, String.ofList [c]) :: ending.lexemes := by
  cases apart <;> rfl

theorem Apart.digit {ending : Ending} (apart : ending.Apart) (c : Char) :
    ending.addDigit c = (.number, String.ofList [c]) :: ending.lexemes := by
  cases apart <;> rfl

theorem apart_closing (rest : List Spelling) : Apart ⟨true, Expr.closing :: rest⟩ :=
  .closing _ _

theorem apart_closing_brace (rest : List Spelling) : Apart ⟨true, closingBrace :: rest⟩ :=
  .closing _ _

theorem Apart.closing_brace {ending : Ending} (apart : ending.Apart) :
    ending.puts "\x7d" = ⟨true, closingBrace :: ending.lexemes⟩ := by
  cases apart <;> rfl

end Ending

def IsWord (name : String) : Prop := name.toList ≠ [] ∧ ∀ c ∈ name.toList, c.isAlpha = true

instance (name : String) : Decidable (IsWord name) :=
  decidable_of_iff (name.toList ≠ [] ∧ name.toList.all Char.isAlpha = true)
    (by simp only [IsWord, List.all_eq_true])

theorem IsWord.ne_empty {name : String} (word : IsWord name) : name ≠ "" := by
  rintro rfl
  exact word.1 rfl

open Ending

/-- In front of whatever does not go on with it, the text has these lexemes. -/
def Typesets (text : String) (spelled : List Spelling) : Prop :=
  ∀ behind : Ending, behind.Apart → behind.puts text = ⟨true, spelled ++ behind.lexemes⟩

def inBraces (spelled : List Spelling) : List Spelling :=
  openingBrace :: (spelled ++ [closingBrace])

theorem puts_word {name : String} {behind : Ending} (word : IsWord name)
    (fresh : ∀ c, behind.addLetter c = (.identifier, String.ofList [c]) :: behind.lexemes) :
    behind.puts name = ⟨true, (.identifier, name) :: behind.lexemes⟩ := by
  rw [puts, letters_put word.1 word.2 fresh, String.ofList_toList]

theorem typesets_variable {name : String} (word : IsWord name) :
    Typesets (Expr.latexVariableName name) [(.identifier, name)] := by
  intro behind apart
  unfold Expr.latexVariableName
  split
  · rename_i isPi
    subst isPi
    show (behind.puts "pi").puts "\\" = _
    rw [puts_word (by decide) apart.letter]
    rfl
  · exact puts_word word apart.letter

theorem typesets_numeral (n : Nat) :
    Typesets (String.ofList (Nat.toDigits 10 n)) [Expr.numeral n] := by
  intro behind apart
  rw [puts_of_list]
  exact digits_put Nat.toDigits_ne_nil (fun _ => Decimal.ascii_digit_of_mem_to_digits) apart.digit

theorem puts_function_name {name : String} (word : IsWord name) (rest : List Spelling) :
    (⟨true, Expr.opening :: rest⟩ : Ending).puts (Expr.latexFunctionName name) =
      ⟨true, (.identifier, name) :: Expr.opening :: rest⟩ := by
  unfold Expr.latexFunctionName
  split
  · rename_i known
    rw [puts_append, puts_word word fun _ => rfl]
    obtain rfl | rfl | rfl := known <;> rfl
  · have command : "\\operatorname\x7b" = "\\" ++ "operatorname" ++ "\x7b" := by
      decide +kernel
    have brace : (⟨true, Expr.opening :: rest⟩ : Ending).puts "\x7d" =
        ⟨true, closingBrace :: Expr.opening :: rest⟩ := rfl
    rw [puts_append, puts_append, brace, puts_word word fun _ => rfl, command, puts_append,
      puts_append]
    have opened : (⟨true, (.identifier, name) :: closingBrace :: Expr.opening :: rest⟩ :
        Ending).puts "\x7b" =
          ⟨true, openingBrace :: (.identifier, name) :: closingBrace :: Expr.opening :: rest⟩ := rfl
    have operator : IsWord "operatorname" := by decide +kernel
    rw [opened, puts_word operator fun _ => rfl]
    rfl

section

variable {text text' : String} {spelled spelled' : List Spelling}

theorem Typesets.enclosed {left right : String} (inside : Typesets text spelled)
    (opens : ∀ behind : Ending, behind.puts left = ⟨true, Expr.opening :: behind.lexemes⟩)
    (closes : ∀ behind : Ending, behind.puts right = ⟨true, Expr.closing :: behind.lexemes⟩) :
    Typesets (left ++ text ++ right) (Expr.enclosed true spelled) := by
  intro behind apart
  rw [puts_append, puts_append, closes, inside _ (apart_closing _), opens]
  simp [Expr.enclosed]

theorem typesets_call {name : String} (word : IsWord name) (inside : Typesets text spelled) :
    Typesets (Expr.latexFunctionName name ++ "(" ++ text ++ ")")
      ((.identifier, name) :: Expr.enclosed true spelled) := by
  intro behind apart
  have argument : behind.puts ("(" ++ text ++ ")") =
      ⟨true, Expr.opening :: ((spelled ++ [Expr.closing]) ++ behind.lexemes)⟩ :=
    inside.enclosed (fun _ => rfl) (fun _ => rfl) behind apart
  have apply : Expr.latexFunctionName name ++ "(" ++ text ++ ")" =
      Expr.latexFunctionName name ++ ("(" ++ text ++ ")") := by
    simp only [String.append_assoc]
  rw [apply, puts_append, argument, puts_function_name word]
  rfl

theorem Typesets.sum {op : BinaryOp} (loose : op.level? = some .sum) (left : Typesets text spelled)
    (right : Typesets text' spelled') :
    Typesets (text ++ " " ++ op.symbol ++ " " ++ text')
      (spelled ++ (.operator, op.symbol) :: spelled') := by
  intro behind apart
  have sign (behind : Ending) : ((behind.puts " ").puts op.symbol).puts " " =
      ⟨false, (.operator, op.symbol) :: behind.lexemes⟩ := by
    cases op with
    | add | sub => rfl
    | mul | div | pow | other symbol => cases loose
  simp only [puts_append, right behind apart, sign, left _ (.gap _)]
  simp

theorem Typesets.product (left : Typesets text spelled) (right : Typesets text' spelled') :
    Typesets (text ++ " \\cdot " ++ text') (spelled ++ times :: spelled') := by
  intro behind apart
  have dot (behind : Ending) : behind.puts " \\cdot " = ⟨false, times :: behind.lexemes⟩ := rfl
  rw [puts_append, puts_append, right behind apart, dot, left _ (.gap _)]
  simp

theorem Typesets.signed {op : SignOp} (known : op.isKnown = true) (inside : Typesets text spelled) :
    Typesets (op.symbol ++ text) ((.operator, op.symbol) :: spelled) := by
  intro behind apart
  rw [puts_append, inside behind apart]
  cases op with
  | plus | minus => rfl
  | other symbol => cases known

/-- Digits in front of a name multiply it. -/
theorem Typesets.juxtaposed {name : String} {rest : List Spelling} (n : Nat)
    (right : Typesets text ((.identifier, name) :: rest)) :
    Typesets (String.ofList (Nat.toDigits 10 n) ++ text)
      (Expr.numeral n :: times :: (.identifier, name) :: rest) := by
  intro behind apart
  rw [puts_append, right behind apart, puts_of_list]
  exact digits_put Nat.toDigits_ne_nil (fun _ => Decimal.ascii_digit_of_mem_to_digits) fun _ => rfl

theorem Typesets.braced (inside : Typesets text spelled) :
    Typesets (Expr.braced text) (inBraces spelled) := by
  intro behind apart
  rw [Expr.braced, puts_append, puts_append, apart.closing_brace, inside _ (apart_closing_brace _)]
  show (⟨true, openingBrace :: _⟩ : Ending) = _
  simp [inBraces]

theorem Typesets.fraction (top : Typesets text spelled) (bottom : Typesets text' spelled') :
    Typesets ("\\frac" ++ Expr.braced text ++ Expr.braced text')
      (inBraces spelled ++ bar :: inBraces spelled') := by
  intro behind apart
  have meet (rest : List Spelling) : (⟨true, openingBrace :: rest⟩ : Ending).puts "\x7d" =
      ⟨true, closingBrace :: bar :: openingBrace :: rest⟩ := rfl
  have opens (behind : Ending) : behind.puts "\x7b" = ⟨true, openingBrace :: behind.lexemes⟩ := rfl
  rw [puts_append, puts_append, bottom.braced behind apart, inBraces, List.cons_append,
    Expr.braced, puts_append, puts_append, meet, top _ (apart_closing_brace _), opens]
  show (⟨true, openingBrace :: _⟩ : Ending) = _
  simp [inBraces]

theorem Typesets.power (base : Typesets text spelled) (exponent : Typesets text' spelled') :
    Typesets (text ++ "^" ++ Expr.braced text')
      (spelled ++ (.operator, "^") :: inBraces spelled') := by
  intro behind apart
  have hat (behind : Ending) : behind.puts "^" = ⟨true, (.operator, "^") :: behind.lexemes⟩ := rfl
  rw [puts_append, puts_append, exponent.braced behind apart, hat, base _ (.operator _ _)]
  simp

end

end Fluxion
