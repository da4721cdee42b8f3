import Fluxion.Proofs.Expr.Same
import Fluxion.Proofs.Meaning.Reading
import Fluxion.Simplify.Fixpoint

/-!
Rewriting keeps values. A rewrite may erase a subtree and may change a value by what
the reading does not tell apart, but it never loses a value that was there. The one
rule that is wrong at a point, zero to a power, is kept from it by asking that no
power of the tree is zero raised to zero, which rewriting in turn preserves.
-/

namespace Fluxion

open Simplify

variable {α β : Type} [Scalar α] {R : Reading α β} {alike : β → β → Prop}

namespace Reading.Lawful

variable (lawful : R.Lawful alike)

include lawful

theorem refl (a : β) : alike a a := lawful.alike_equivalence.refl a

theorem symm {a b : β} (close : alike a b) : alike b a := lawful.alike_equivalence.symm close

theorem trans {a b c : β} (first : alike a b) (second : alike b c) : alike a c :=
  lawful.alike_equivalence.trans first second

theorem operate_left {op : BinaryOp} {a a' b c : β} (close : alike a a')
    (result : R.operate op a b = some c) : ∃ c', R.operate op a' b = some c' ∧ alike c' c :=
  lawful.operate_alike close (lawful.refl b) result

theorem operate_right {op : BinaryOp} {a b b' c : β} (close : alike b b')
    (result : R.operate op a b = some c) : ∃ c', R.operate op a b' = some c' ∧ alike c' c :=
  lawful.operate_alike (lawful.refl a) close result

theorem same_value {tree other : Expr α} (same : tree.same other = true) {marks : Nat} {a : β}
    (valued : R.value marks tree = some a) :
    ∃ b, R.value marks other = some b ∧ alike b a := by
  replace same := Expr.matches_of_same same
  induction same generalizing marks a with
  | missing =>
      rw [value_missing] at valued
      cases valued
  | num close =>
      obtain ⟨rfl, rfl⟩ := value_num.1 valued
      exact ⟨_, rfl, lawful.symm (lawful.same_number close)⟩
  | var name => exact ⟨a, valued, lawful.refl a⟩
  | binary op left right valuesLeft valuesRight =>
      obtain ⟨rfl, b, c, valueLeft, valueRight, result⟩ := value_binary.1 valued
      obtain ⟨b', valueLeft', closeLeft⟩ := valuesLeft valueLeft
      obtain ⟨c', valueRight', closeRight⟩ := valuesRight valueRight
      obtain ⟨a', result', close⟩ :=
        lawful.operate_alike (lawful.symm closeLeft) (lawful.symm closeRight) result
      exact ⟨a', value_binary.2 ⟨rfl, b', c', valueLeft', valueRight', result'⟩, close⟩
  | signed op inner valuesInner =>
      obtain ⟨rfl, b, valueInner, rfl⟩ := value_signed.1 valued
      obtain ⟨b', valueInner', close⟩ := valuesInner valueInner
      refine ⟨_, value_signed.2 ⟨rfl, b', valueInner', rfl⟩, ?_⟩
      split
      · exact lawful.negate_alike close
      · exact close
  | marked op inner valuesInner =>
      obtain ⟨rfl, valueInner⟩ := value_marked.1 valued
      obtain ⟨b, valueInner', close⟩ := valuesInner valueInner
      exact ⟨b, value_marked.2 ⟨rfl, valueInner'⟩, close⟩
  | call name inner valuesInner =>
      obtain ⟨b, valueInner, result⟩ := value_call.1 valued
      obtain ⟨b', valueInner', close⟩ := valuesInner valueInner
      obtain ⟨a', result', close'⟩ := lawful.apply_alike (lawful.symm close) result
      exact ⟨a', value_call.2 ⟨b', valueInner', result'⟩, close'⟩

end Reading.Lawful

namespace Simplify

open Reading

/-- Numbers that count as equal within the tolerance have the same meaning. -/
def Sharp (R : Reading α β) (alike : β → β → Prop) (epsilon : α) : Prop :=
  ∀ a b : α, Scalar.near epsilon a b = true → alike (R.number a) (R.number b)

variable {epsilon : α}

theorem Sharp.value_of_is_value (sharp : Sharp R alike epsilon) {tree : Expr α} {whole : Nat}
    (isWhole : isValue epsilon tree whole = true) {a : β} (valued : R.value 0 tree = some a) :
    alike a (R.whole whole) := by
  cases tree with
  | num v =>
      obtain ⟨-, rfl⟩ := value_num.1 valued
      exact sharp _ _ isWhole
  | _ => cases isWhole

theorem value_whole_number (n : Nat) : R.value 0 (wholeNumber n : Expr α) = some (R.whole n) := rfl

theorem BinaryRule.no_zero_to_zero {op : BinaryOp} {lhs rhs tree : Expr α}
    (rule : BinaryRule epsilon op lhs rhs tree) (left : R.NoZeroToZero alike lhs)
    (right : R.NoZeroToZero alike rhs) : R.NoZeroToZero alike tree := by
  cases rule with
  | plusSame same => exact ⟨trivial, left, nofun⟩
  | zeroPlus | zeroMinus | oneTimes => exact right
  | plusZero | minusZero | timesOne | overOne | powerOne => exact left
  | _ => trivial

theorem SignRule.no_zero_to_zero {op : SignOp} {operand tree : Expr α}
    (rule : SignRule op operand tree) (regular : R.NoZeroToZero alike operand) :
    R.NoZeroToZero alike tree := by
  cases rule with
  | number => trivial
  | _ => exact regular

variable (lawful : R.Lawful alike)

include lawful

/-- A rule keeps the value of a node if its operands have the values that it takes them to
have. -/
theorem BinaryRule.value {op : BinaryOp} {lhs rhs tree : Expr α}
    (rule : BinaryRule epsilon op lhs rhs tree) {a b c : β} (left : R.value 0 lhs = some a)
    (right : R.value 0 rhs = some b) (result : R.operate op a b = some c)
    (exactLeft : ∀ n ≤ 1, isValue epsilon lhs n = true → alike a (R.whole n))
    (exactRight : ∀ n ≤ 1, isValue epsilon rhs n = true → alike b (R.whole n))
    (noZeroToZero : op = .pow → tree = wholeNumber 0 →
      ¬ (alike a (R.whole 0) ∧ alike b (R.whole 0))) :
    ∃ c', R.value 0 tree = some c' ∧ alike c' c := by
  cases rule with
  | zeroPlus zero =>
      obtain ⟨c', result', close⟩ :=
        lawful.operate_left (exactLeft 0 (Nat.zero_le 1) zero) result
      exact ⟨b, right, lawful.trans (lawful.zero_add result') close⟩
  | plusZero zero =>
      obtain ⟨c', result', close⟩ :=
        lawful.operate_right (exactRight 0 (Nat.zero_le 1) zero) result
      exact ⟨a, left, lawful.trans (lawful.add_zero result') close⟩
  | plusSame same =>
      obtain ⟨b', right', closeRight⟩ := lawful.same_value same left
      cases right.symm.trans right'
      obtain ⟨c', result', close⟩ := lawful.operate_right closeRight result
      obtain ⟨d, double, closeDouble⟩ := lawful.add_self result'
      exact ⟨d, value_binary.2 ⟨rfl, _, a, value_whole_number 2, left, double⟩,
        lawful.trans closeDouble close⟩
  | minusZero zero =>
      obtain ⟨c', result', close⟩ :=
        lawful.operate_right (exactRight 0 (Nat.zero_le 1) zero) result
      exact ⟨a, left, lawful.trans (lawful.sub_zero result') close⟩
  | zeroMinus zero =>
      obtain ⟨c', result', close⟩ :=
        lawful.operate_left (exactLeft 0 (Nat.zero_le 1) zero) result
      exact ⟨R.negate b, value_signed.2 ⟨rfl, b, right, rfl⟩,
        lawful.trans (lawful.zero_sub result') close⟩
  | minusSame same =>
      obtain ⟨b', right', closeRight⟩ := lawful.same_value same left
      cases right.symm.trans right'
      obtain ⟨c', result', close⟩ := lawful.operate_right closeRight result
      exact ⟨_, value_whole_number 0, lawful.trans (lawful.sub_self result') close⟩
  | oneTimes one =>
      obtain ⟨c', result', close⟩ :=
        lawful.operate_left (exactLeft 1 (Nat.le_refl 1) one) result
      exact ⟨b, right, lawful.trans (lawful.one_mul result') close⟩
  | timesOne one =>
      obtain ⟨c', result', close⟩ :=
        lawful.operate_right (exactRight 1 (Nat.le_refl 1) one) result
      exact ⟨a, left, lawful.trans (lawful.mul_one result') close⟩
  | zeroTimes zero =>
      obtain ⟨c', result', close⟩ :=
        lawful.operate_left (exactLeft 0 (Nat.zero_le 1) zero) result
      exact ⟨_, value_whole_number 0, lawful.trans (lawful.zero_mul result') close⟩
  | timesZero zero =>
      obtain ⟨c', result', close⟩ :=
        lawful.operate_right (exactRight 0 (Nat.zero_le 1) zero) result
      exact ⟨_, value_whole_number 0, lawful.trans (lawful.mul_zero result') close⟩
  | zeroOver zero =>
      obtain ⟨c', result', close⟩ :=
        lawful.operate_left (exactLeft 0 (Nat.zero_le 1) zero) result
      exact ⟨_, value_whole_number 0, lawful.trans (lawful.zero_div result') close⟩
  | overOne one =>
      obtain ⟨c', result', close⟩ :=
        lawful.operate_right (exactRight 1 (Nat.le_refl 1) one) result
      exact ⟨a, left, lawful.trans (lawful.div_one result') close⟩
  | overSame same =>
      obtain ⟨b', right', closeRight⟩ := lawful.same_value same left
      cases right.symm.trans right'
      obtain ⟨c', result', close⟩ := lawful.operate_right closeRight result
      exact ⟨_, value_whole_number 1, lawful.trans (lawful.div_self result') close⟩
  | zeroPower zero =>
      have base := exactLeft 0 (Nat.zero_le 1) zero
      have exponent : ¬ alike b (R.whole 0) := fun close => noZeroToZero rfl rfl ⟨base, close⟩
      obtain ⟨c', result', close⟩ := lawful.operate_left base result
      exact ⟨_, value_whole_number 0, lawful.trans (lawful.zero_pow exponent result') close⟩
  | onePower one =>
      obtain ⟨c', result', close⟩ :=
        lawful.operate_left (exactLeft 1 (Nat.le_refl 1) one) result
      exact ⟨_, value_whole_number 1, lawful.trans (lawful.one_pow result') close⟩
  | powerZero zero =>
      obtain ⟨c', result', close⟩ :=
        lawful.operate_right (exactRight 0 (Nat.zero_le 1) zero) result
      exact ⟨_, value_whole_number 1, lawful.trans (lawful.pow_zero result') close⟩
  | powerOne one =>
      obtain ⟨c', result', close⟩ :=
        lawful.operate_right (exactRight 1 (Nat.le_refl 1) one) result
      exact ⟨a, left, lawful.trans (lawful.pow_one result') close⟩

theorem SignRule.value {op : SignOp} {operand tree : Expr α} (rule : SignRule op operand tree)
    (built : (Expr.signed op operand).Built) {a : β}
    (valued : R.value 0 (.signed op operand) = some a) :
    ∃ a', R.value 0 tree = some a' ∧ alike a' a := by
  obtain ⟨-, b, inner, rfl⟩ := value_signed.1 valued
  rw [Expr.built_signed] at built
  cases rule with
  | plus => exact ⟨b, inner, lawful.refl b⟩
  | number minus v =>
      obtain rfl := eq_minus built.1 minus
      obtain ⟨-, rfl⟩ := value_num.1 inner
      exact ⟨_, rfl, lawful.negate_number v⟩
  | minusMinus minus deep =>
      obtain rfl := eq_minus built.1 minus
      obtain ⟨-, c, innermost, rfl⟩ := value_signed.1 inner
      exact ⟨c, innermost, lawful.symm (lawful.negate_negate c)⟩
  | minusOther minus other deep =>
      obtain rfl := eq_minus built.1 minus
      obtain ⟨-, c, innermost, rfl⟩ := value_signed.1 inner
      rw [if_neg other]
      exact ⟨_, value_signed.2 ⟨rfl, c, innermost, rfl⟩, lawful.refl _⟩

variable (sharp : Sharp R alike epsilon)

include sharp

theorem CallRule.value {name : String} {arg tree : Expr α} (rule : CallRule epsilon name arg tree)
    {a b : β} (inner : R.value 0 arg = some a) (result : R.apply 0 name a = some b) :
    ∃ b', R.value 0 tree = some b' ∧ alike b' b := by
  have atNumber {v : α} {whole : Nat} (near : Scalar.near epsilon v (Scalar.ofNat whole) = true)
      (valued : R.value 0 (.num v) = some a) :
      ∃ b', R.apply 0 name (R.whole whole) = some b' ∧ alike b' b := by
    obtain ⟨-, rfl⟩ := value_num.1 valued
    exact lawful.apply_alike (sharp _ _ near) result
  cases rule with
  | sinZero zero =>
      obtain ⟨b', result', close⟩ := atNumber zero inner
      exact ⟨_, value_whole_number 0, lawful.trans (lawful.sin_zero result') close⟩
  | tgZero zero =>
      obtain ⟨b', result', close⟩ := atNumber zero inner
      exact ⟨_, value_whole_number 0, lawful.trans (lawful.tg_zero result') close⟩
  | cosZero zero =>
      obtain ⟨b', result', close⟩ := atNumber zero inner
      exact ⟨_, value_whole_number 1, lawful.trans (lawful.cos_zero result') close⟩
  | lnOne one =>
      obtain ⟨b', result', close⟩ := atNumber one inner
      exact ⟨_, value_whole_number 0, lawful.trans (lawful.ln_one result') close⟩
  | lnEuler =>
      obtain ⟨-, bound⟩ := value_var.1 inner
      exact ⟨_, value_whole_number 1, lawful.ln_euler bound result⟩

omit sharp in
/-- A call that a rule rewrites is under no marker, since the functions with rules
have no meaning there. -/
theorem CallRule.unmarked {name : String} {arg tree : Expr α}
    (rule : CallRule epsilon name arg tree) {marks : Nat} {a b : β}
    (result : R.apply marks name a = some b) : marks = 0 := by
  cases marks with
  | zero => rfl
  | succ marks =>
      have unknown := lawful.marked_unknown result
      cases rule <;> exact absurd unknown (by decide)

/-- A tree that rewrites to another where it has a value: the other has it too, and
still raises nothing that is zero to zero. -/
theorem Rewrites.value {tree tree' : Expr α} (rewrites : Rewrites epsilon tree tree')
    (built : tree.Built) {marks : Nat} {a : β} (valued : R.value marks tree = some a)
    (regular : R.NoZeroToZero alike tree) :
    (∃ a', R.value marks tree' = some a' ∧ alike a' a) ∧ R.NoZeroToZero alike tree' := by
  induction rewrites generalizing marks a with
  | refl tree => exact ⟨⟨a, valued, lawful.refl a⟩, regular⟩
  | trans before after first second =>
      obtain ⟨⟨b, between, close⟩, regularBetween⟩ := first built valued regular
      obtain ⟨⟨c, last, close'⟩, regularLast⟩ :=
        second (before.built built) between regularBetween
      exact ⟨⟨c, last, lawful.trans close' close⟩, regularLast⟩
  | binary op left right first second =>
      rw [Expr.built_binary] at built
      obtain ⟨rfl, b, c, valueLeft, valueRight, result⟩ := value_binary.1 valued
      obtain ⟨regularLeft, regularRight, noZeroToZero⟩ := regular
      obtain ⟨⟨b', valueLeft', closeLeft⟩, regularLeft'⟩ :=
        first built.2.1 valueLeft regularLeft
      obtain ⟨⟨c', valueRight', closeRight⟩, regularRight'⟩ :=
        second built.2.2 valueRight regularRight
      obtain ⟨a', result', close⟩ :=
        lawful.operate_alike (lawful.symm closeLeft) (lawful.symm closeRight) result
      refine ⟨⟨a', value_binary.2 ⟨rfl, b', c', valueLeft', valueRight', result'⟩, close⟩,
        regularLeft', regularRight', ?_⟩
      intro power p q isLeft isRight zeros
      cases valueLeft'.symm.trans isLeft
      cases valueRight'.symm.trans isRight
      have zeroBase := lawful.trans (lawful.symm closeLeft) zeros.1
      have zeroExponent := lawful.trans (lawful.symm closeRight) zeros.2
      exact noZeroToZero power b c valueLeft valueRight ⟨zeroBase, zeroExponent⟩
  | signed op inner induction =>
      rw [Expr.built_signed] at built
      obtain ⟨rfl, b, valueInner, rfl⟩ := value_signed.1 valued
      obtain ⟨⟨b', valueInner', close⟩, regular'⟩ := induction built.2 valueInner regular
      refine ⟨⟨_, value_signed.2 ⟨rfl, b', valueInner', rfl⟩, ?_⟩, regular'⟩
      split
      · exact lawful.negate_alike close
      · exact close
  | marked op inner induction =>
      rw [Expr.built_marked] at built
      obtain ⟨rfl, valueInner⟩ := value_marked.1 valued
      obtain ⟨⟨a', valueInner', close⟩, regular'⟩ := induction built.2 valueInner regular
      exact ⟨⟨a', value_marked.2 ⟨rfl, valueInner'⟩, close⟩, regular'⟩
  | call name inner induction =>
      rw [Expr.built_call] at built
      obtain ⟨b, valueInner, result⟩ := value_call.1 valued
      obtain ⟨⟨b', valueInner', close⟩, regular'⟩ := induction built.2 valueInner regular
      obtain ⟨a', result', close'⟩ := lawful.apply_alike (lawful.symm close) result
      exact ⟨⟨a', value_call.2 ⟨b', valueInner', result'⟩, close'⟩, regular'⟩
  | folded folds =>
      obtain ⟨rfl, b, c, valueLeft, valueRight, result⟩ := value_binary.1 valued
      obtain ⟨-, rfl⟩ := value_num.1 valueLeft
      obtain ⟨-, rfl⟩ := value_num.1 valueRight
      exact ⟨⟨_, rfl, lawful.fold_number folds result⟩, trivial⟩
  | binaryRule rule =>
      obtain ⟨rfl, b, c, valueLeft, valueRight, result⟩ := value_binary.1 valued
      obtain ⟨regularLeft, regularRight, noZeroToZero⟩ := regular
      exact ⟨rule.value lawful valueLeft valueRight result
        (fun _ _ whole => sharp.value_of_is_value whole valueLeft)
        (fun _ _ whole => sharp.value_of_is_value whole valueRight)
        (fun power _ => noZeroToZero power b c valueLeft valueRight),
        rule.no_zero_to_zero regularLeft regularRight⟩
  | signRule rule =>
      obtain ⟨rfl, -⟩ := value_signed.1 valued
      exact ⟨rule.value lawful built valued, rule.no_zero_to_zero regular⟩
  | callRule rule =>
      obtain ⟨b, valueInner, result⟩ := value_call.1 valued
      obtain rfl := rule.unmarked lawful result
      refine ⟨rule.value lawful sharp valueInner result, ?_⟩
      cases rule <;> trivial

end Simplify

end Fluxion
