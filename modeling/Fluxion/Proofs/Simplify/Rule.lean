import Fluxion.Simplify.Rules

/-!
The rules of simplification one by one. A rule replaces a node whose children are
given; the order in which the rules are tried decides which one fires where two
apply, and nothing that holds of every rule depends on it.
-/

namespace Fluxion.Simplify

variable {α : Type} [Scalar α]

/-- The rules for a binary node, without the order in which they are tried. -/
inductive BinaryRule (epsilon : α) : BinaryOp → Expr α → Expr α → Expr α → Prop
  | zeroPlus {lhs rhs : Expr α} (zero : isValue epsilon lhs 0 = true) :
      BinaryRule epsilon .add lhs rhs rhs
  | plusZero {lhs rhs : Expr α} (zero : isValue epsilon rhs 0 = true) :
      BinaryRule epsilon .add lhs rhs lhs
  | plusSame {lhs rhs : Expr α} (same : lhs.same rhs = true) :
      BinaryRule epsilon .add lhs rhs (.binary .mul (wholeNumber 2) lhs)
  | minusZero {lhs rhs : Expr α} (zero : isValue epsilon rhs 0 = true) :
      BinaryRule epsilon .sub lhs rhs lhs
  | zeroMinus {lhs rhs : Expr α} (zero : isValue epsilon lhs 0 = true) :
      BinaryRule epsilon .sub lhs rhs (.signed .minus rhs)
  | minusSame {lhs rhs : Expr α} (same : lhs.same rhs = true) :
      BinaryRule epsilon .sub lhs rhs (wholeNumber 0)
  | oneTimes {lhs rhs : Expr α} (one : isValue epsilon lhs 1 = true) :
      BinaryRule epsilon .mul lhs rhs rhs
  | timesOne {lhs rhs : Expr α} (one : isValue epsilon rhs 1 = true) :
      BinaryRule epsilon .mul lhs rhs lhs
  | zeroTimes {lhs rhs : Expr α} (zero : isValue epsilon lhs 0 = true) :
      BinaryRule epsilon .mul lhs rhs (wholeNumber 0)
  | timesZero {lhs rhs : Expr α} (zero : isValue epsilon rhs 0 = true) :
      BinaryRule epsilon .mul lhs rhs (wholeNumber 0)
  | zeroOver {lhs rhs : Expr α} (zero : isValue epsilon lhs 0 = true) :
      BinaryRule epsilon .div lhs rhs (wholeNumber 0)
  | overOne {lhs rhs : Expr α} (one : isValue epsilon rhs 1 = true) :
      BinaryRule epsilon .div lhs rhs lhs
  | overSame {lhs rhs : Expr α} (same : lhs.same rhs = true) :
      BinaryRule epsilon .div lhs rhs (wholeNumber 1)
  | zeroPower {lhs rhs : Expr α} (zero : isValue epsilon lhs 0 = true) :
      BinaryRule epsilon .pow lhs rhs (wholeNumber 0)
  | onePower {lhs rhs : Expr α} (one : isValue epsilon lhs 1 = true) :
      BinaryRule epsilon .pow lhs rhs (wholeNumber 1)
  | powerZero {lhs rhs : Expr α} (zero : isValue epsilon rhs 0 = true) :
      BinaryRule epsilon .pow lhs rhs (wholeNumber 1)
  | powerOne {lhs rhs : Expr α} (one : isValue epsilon rhs 1 = true) :
      BinaryRule epsilon .pow lhs rhs lhs

theorem reduce_binary_rule {epsilon : α} {op : BinaryOp} {lhs rhs tree : Expr α}
    (reduces : reduceBinary epsilon op lhs rhs = some tree) :
    BinaryRule epsilon op lhs rhs tree := by
  cases op with
  | add =>
      simp only [reduceBinary, reduceSum] at reduces
      split at reduces
      · cases reduces
        exact .zeroPlus (by assumption)
      split at reduces
      · cases reduces
        exact .plusZero (by assumption)
      split at reduces
      · cases reduces
        exact .plusSame (by assumption)
      · cases reduces
  | sub =>
      simp only [reduceBinary, reduceDifference] at reduces
      split at reduces
      · cases reduces
        exact .minusZero (by assumption)
      split at reduces
      · cases reduces
        exact .zeroMinus (by assumption)
      split at reduces
      · cases reduces
        exact .minusSame (by assumption)
      · cases reduces
  | mul =>
      simp only [reduceBinary, reduceProduct, Bool.or_eq_true] at reduces
      split at reduces
      · cases reduces
        exact .oneTimes (by assumption)
      split at reduces
      · cases reduces
        exact .timesOne (by assumption)
      split at reduces
      · rename_i zeros
        cases reduces
        rcases zeros with zero | zero
        · exact .zeroTimes zero
        · exact .timesZero zero
      · cases reduces
  | div =>
      simp only [reduceBinary, reduceQuotient] at reduces
      split at reduces
      · cases reduces
        exact .zeroOver (by assumption)
      split at reduces
      · cases reduces
        exact .overOne (by assumption)
      split at reduces
      · cases reduces
        exact .overSame (by assumption)
      · cases reduces
  | pow =>
      simp only [reduceBinary, reducePower] at reduces
      split at reduces
      · cases reduces
        exact .zeroPower (by assumption)
      split at reduces
      · cases reduces
        exact .onePower (by assumption)
      split at reduces
      · cases reduces
        exact .powerZero (by assumption)
      split at reduces
      · cases reduces
        exact .powerOne (by assumption)
      · cases reduces
  | other symbol => cases reduces

/-- Where a rule for a binary node applies, one of them is used. -/
theorem BinaryRule.reduces {epsilon : α} {op : BinaryOp} {lhs rhs tree : Expr α}
    (rule : BinaryRule epsilon op lhs rhs tree) :
    ∃ reduct, reduceBinary epsilon op lhs rhs = some reduct := by
  rw [← Option.isSome_iff_exists]
  cases rule <;>
    simp only [reduceBinary, reduceSum, reduceDifference, reduceProduct, reduceQuotient,
      reducePower] <;>
    grind

inductive SignRule : SignOp → Expr α → Expr α → Prop
  | plus (operand : Expr α) : SignRule .plus operand operand
  | number {op : SignOp} (minus : op ≠ .plus) (value : α) :
      SignRule op (.num value) (.num (Scalar.neg value))
  | minusMinus {op : SignOp} (minus : op ≠ .plus) (inner : Expr α) :
      SignRule op (.signed .minus inner) inner
  | minusOther {op inside : SignOp} (minus : op ≠ .plus) (other : inside ≠ .minus)
      (inner : Expr α) : SignRule op (.signed inside inner) (.signed .minus inner)

theorem eq_minus {op : SignOp} (known : op.isKnown = true) (notPlus : op ≠ .plus) :
    op = .minus := by
  cases op with
  | plus => exact absurd rfl notPlus
  | minus => rfl
  | other symbol => cases known

theorem reduce_signed_rule {op : SignOp} {operand tree : Expr α}
    (reduces : reduceSigned op operand = some tree) : SignRule op operand tree := by
  unfold reduceSigned at reduces
  split at reduces
  · cases reduces
    exact .plus operand
  · rename_i minus
    split at reduces
    · cases reduces
      exact .number minus _
    · cases reduces
      exact .minusMinus minus _
    · rename_i other
      cases reduces
      exact .minusOther minus other _
    · cases reduces

theorem SignRule.reduces {op : SignOp} {operand tree : Expr α} (rule : SignRule op operand tree) :
    reduceSigned op operand = some tree := by
  unfold reduceSigned
  cases rule with
  | plus => rfl
  | number | minusMinus | minusOther => split <;> grind

inductive CallRule (epsilon : α) : String → Expr α → Expr α → Prop
  | sinZero {value : α} (zero : Scalar.near epsilon value (Scalar.ofNat 0) = true) :
      CallRule epsilon "sin" (.num value) (wholeNumber 0)
  | tgZero {value : α} (zero : Scalar.near epsilon value (Scalar.ofNat 0) = true) :
      CallRule epsilon "tg" (.num value) (wholeNumber 0)
  | cosZero {value : α} (zero : Scalar.near epsilon value (Scalar.ofNat 0) = true) :
      CallRule epsilon "cos" (.num value) (wholeNumber 1)
  | lnOne {value : α} (one : Scalar.near epsilon value (Scalar.ofNat 1) = true) :
      CallRule epsilon "ln" (.num value) (wholeNumber 0)
  | lnEuler : CallRule epsilon "ln" (.var Expr.eulerName) (wholeNumber 1)

theorem reduce_call_rule {epsilon : α} {name : String} {arg tree : Expr α}
    (reduces : reduceCall epsilon name arg = some tree) : CallRule epsilon name arg tree := by
  unfold reduceCall at reduces
  split at reduces
  · obtain ⟨whole, found, rfl⟩ := Option.map_eq_some_iff.1 reduces
    unfold identityAt? at found
    split at found
    · rename_i rule
      obtain ⟨rfl, zero⟩ := rule
      cases found
      exact .sinZero zero
    split at found
    · rename_i rule
      obtain ⟨rfl, zero⟩ := rule
      cases found
      exact .tgZero zero
    split at found
    · rename_i rule
      obtain ⟨rfl, zero⟩ := rule
      cases found
      exact .cosZero zero
    split at found
    · rename_i rule
      obtain ⟨rfl, one⟩ := rule
      cases found
      exact .lnOne one
    · cases found
  · split at reduces
    · rename_i rule
      obtain ⟨rfl, rfl⟩ := rule
      cases reduces
      exact .lnEuler
    · cases reduces
  · cases reduces

theorem CallRule.reduces {epsilon : α} {name : String} {arg tree : Expr α}
    (rule : CallRule epsilon name arg tree) : reduceCall epsilon name arg = some tree := by
  cases rule with
  | sinZero zero | tgZero zero | cosZero zero => simp [reduceCall, identityAt?, zero]
  | lnOne one => simp [reduceCall, identityAt?, one]
  | lnEuler => simp [reduceCall]

end Fluxion.Simplify
