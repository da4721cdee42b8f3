import Fluxion.Proofs.Expr.Same
import Fluxion.Proofs.Polynomial.Denotation
import Fluxion.Proofs.Simplify.Rewriting

/-!
Rewriting and the polynomials that a tree denotes. A rewrite may decide what zero to the
power of zero is to be, so what is left may denote less; it still denotes something, and
nothing that the tree did not. Main statement: over exact rationals optimization keeps what
a tree means.
-/

namespace Fluxion

open Polynomial Simplify Fluxion.Expr

section

variable {v : String} {tree tree' tree'' lhs lhs' rhs rhs' operand operand' : Expr ℚ} {p : ℚ[X]}

def Keeps (v : String) (tree tree' : Expr ℚ) : Prop :=
  (∃ p, Denotes v tree' p) ∧ ∀ p, Denotes v tree' p → Denotes v tree p

theorem keeps_number {value : ℚ} (denotes : Denotes v tree (C value)) :
    Keeps v tree (.num value) := by
  refine ⟨⟨_, .number value⟩, fun q number => ?_⟩
  cases number
  exact denotes

namespace Keeps

theorem trans (first : Keeps v tree tree') (second : Keeps v tree' tree'') :
    Keeps v tree tree'' := by
  obtain ⟨last, older⟩ := second
  exact ⟨last, fun q other => first.2 q (older q other)⟩

theorem plus (inner : Keeps v operand operand') :
    Keeps v (.signed .plus operand) (.signed .plus operand') := by
  obtain ⟨⟨p, denotes⟩, old⟩ := inner
  refine ⟨⟨_, .plus denotes⟩, fun q other => ?_⟩
  cases other with
  | plus other => exact .plus (old _ other)

theorem minus (inner : Keeps v operand operand') :
    Keeps v (.signed .minus operand) (.signed .minus operand') := by
  obtain ⟨⟨p, denotes⟩, old⟩ := inner
  refine ⟨⟨_, .minus denotes⟩, fun q other => ?_⟩
  cases other with
  | minus other => exact .minus (old _ other)

theorem sum (left : Keeps v lhs lhs') (right : Keeps v rhs rhs') :
    Keeps v (.binary .add lhs rhs) (.binary .add lhs' rhs') := by
  obtain ⟨⟨p, denotesLeft⟩, oldLeft⟩ := left
  obtain ⟨⟨q, denotesRight⟩, oldRight⟩ := right
  refine ⟨⟨_, .sum denotesLeft denotesRight⟩, fun r other => ?_⟩
  cases other with
  | sum left right => exact .sum (oldLeft _ left) (oldRight _ right)

theorem difference (left : Keeps v lhs lhs') (right : Keeps v rhs rhs') :
    Keeps v (.binary .sub lhs rhs) (.binary .sub lhs' rhs') := by
  obtain ⟨⟨p, denotesLeft⟩, oldLeft⟩ := left
  obtain ⟨⟨q, denotesRight⟩, oldRight⟩ := right
  refine ⟨⟨_, .difference denotesLeft denotesRight⟩, fun r other => ?_⟩
  cases other with
  | difference left right => exact .difference (oldLeft _ left) (oldRight _ right)

theorem product (left : Keeps v lhs lhs') (right : Keeps v rhs rhs') :
    Keeps v (.binary .mul lhs rhs) (.binary .mul lhs' rhs') := by
  obtain ⟨⟨p, denotesLeft⟩, oldLeft⟩ := left
  obtain ⟨⟨q, denotesRight⟩, oldRight⟩ := right
  refine ⟨⟨_, .product denotesLeft denotesRight⟩, fun r other => ?_⟩
  cases other with
  | product left right => exact .product (oldLeft _ left) (oldRight _ right)

theorem quotient {divisor : ℚ} (left : Keeps v lhs lhs') (nonzero : divisor ≠ 0) :
    Keeps v (.binary .div lhs (.num divisor)) (.binary .div lhs' (.num divisor)) := by
  obtain ⟨⟨p, denotesLeft⟩, oldLeft⟩ := left
  refine ⟨⟨_, .quotient denotesLeft nonzero⟩, fun r other => ?_⟩
  cases other with
  | quotient left => exact .quotient (oldLeft _ left) nonzero

theorem power {n : ℕ} (left : Keeps v lhs lhs') (natural : Exponent rhs n)
    (natural' : Exponent rhs' n) :
    Keeps v (.binary .pow lhs rhs) (.binary .pow lhs' rhs') := by
  obtain ⟨⟨p, denotesLeft⟩, oldLeft⟩ := left
  refine ⟨⟨_, .power denotesLeft natural'⟩, fun r other => ?_⟩
  cases other with
  | power left other =>
      cases natural'.unique other
      exact .power (oldLeft _ left) natural
  | zeroToZero left other =>
      cases natural'.unique other
      exact .zeroToZero (oldLeft _ left) natural

end Keeps

theorem Means.keeps (means : Means v tree p) (keeps : Keeps v tree tree') : Means v tree' p := by
  obtain ⟨⟨q, denotes⟩, old⟩ := keeps
  cases means.unique (old q denotes)
  exact ⟨denotes, fun other => means.unique (old _ other)⟩

end

variable [Scalar ℚ] {v : String} {tree tree' : Expr ℚ} (exact : ExactRationals)

include exact

theorem is_value_iff {n : ℕ} : isValue Scalar.tolerance tree n = true ↔ tree = .num n := by
  cases tree with
  | num value =>
      rw [isValue, exact.near, exact.of_nat]
      exact (Expr.num.injEq _ _).symm.to_iff
  | _ => exact ⟨nofun, nofun⟩

theorem eq_of_same (same : tree.same tree' = true) : tree = tree' := by
  replace same := matches_of_same same
  induction same with
  | missing | var name => rfl
  | num close => rw [exact.same.1 close]
  | binary op left right sameLeft sameRight => rw [sameLeft, sameRight]
  | signed op inner sameInner | marked op inner sameInner | call name inner sameInner =>
      rw [sameInner]

theorem whole_number_eq (n : ℕ) : wholeNumber n = .num (n : ℚ) := by
  rw [wholeNumber, exact.of_nat]

theorem Exponent.rewrites {n : ℕ} (exponent : Exponent tree n)
    (rewrites : Rewrites Scalar.tolerance tree tree') : Exponent tree' n := by
  induction rewrites with
  | refl tree => exact exponent
  | trans before after first second => exact second (first exponent)
  | binary op left right first second =>
      cases exponent with
      | lowered n =>
          rw [left.of_number, right.of_number]
          exact .lowered n
  | folded folds =>
      cases exponent with
      | lowered n =>
          rw [BinaryOp.fold, exact.sub, add_sub_cancel_right] at folds
          cases folds
          exact .number n
  | binaryRule rule =>
      cases exponent with
      | lowered n =>
          cases rule with
          | minusZero zero =>
              rw [is_value_iff exact, Nat.cast_zero] at zero
              exact absurd (Expr.num.inj zero) one_ne_zero
          | zeroMinus zero =>
              rw [is_value_iff exact, Nat.cast_zero] at zero
              exact absurd (Expr.num.inj zero) (Nat.cast_add_one_ne_zero n)
          | minusSame same =>
              have zero := add_eq_right.1 (Expr.num.inj (eq_of_same exact same))
              cases Nat.cast_eq_zero.1 zero
              rw [whole_number_eq exact]
              exact .number 0
  | signed | marked | call | signRule | callRule => cases exponent

section

variable {op : BinaryOp} {lhs rhs operand : Expr ℚ} {p : ℚ[X]}

theorem Simplify.BinaryRule.keeps (rule : BinaryRule Scalar.tolerance op lhs rhs tree)
    (denotes : Denotes v (.binary op lhs rhs) p) : Keeps v (.binary op lhs rhs) tree := by
  cases rule with
  | zeroPlus zero =>
      obtain rfl := (is_value_iff exact).1 zero
      cases denotes with
      | sum left right =>
          refine ⟨⟨_, right⟩, fun q other => ?_⟩
          exact (Denotes.sum left other).cast (by cases left; simp)
  | plusZero zero =>
      obtain rfl := (is_value_iff exact).1 zero
      cases denotes with
      | sum left right =>
          refine ⟨⟨_, left⟩, fun q other => ?_⟩
          exact (Denotes.sum other right).cast (by cases right; simp)
  | plusSame same =>
      obtain rfl := eq_of_same exact same
      rw [whole_number_eq exact]
      cases denotes with
      | sum left right =>
          refine ⟨⟨_, .product (.number _) left⟩, fun q other => ?_⟩
          cases other with
          | product number other =>
              cases number
              refine (Denotes.sum other other).cast ?_
              rw [map_natCast, Nat.cast_ofNat, two_mul]
  | minusZero zero =>
      obtain rfl := (is_value_iff exact).1 zero
      cases denotes with
      | difference left right =>
          refine ⟨⟨_, left⟩, fun q other => ?_⟩
          exact (Denotes.difference other right).cast (by cases right; simp)
  | zeroMinus zero =>
      obtain rfl := (is_value_iff exact).1 zero
      cases denotes with
      | difference left right =>
          refine ⟨⟨_, .minus right⟩, fun q other => ?_⟩
          cases other with
          | minus other => exact (Denotes.difference left other).cast (by cases left; simp)
  | minusSame same =>
      obtain rfl := eq_of_same exact same
      rw [whole_number_eq exact]
      cases denotes with
      | difference left right => exact keeps_number ((Denotes.difference left left).cast (by simp))
  | oneTimes one =>
      obtain rfl := (is_value_iff exact).1 one
      cases denotes with
      | product left right =>
          refine ⟨⟨_, right⟩, fun q other => ?_⟩
          exact (Denotes.product left other).cast (by cases left; simp)
  | timesOne one =>
      obtain rfl := (is_value_iff exact).1 one
      cases denotes with
      | product left right =>
          refine ⟨⟨_, left⟩, fun q other => ?_⟩
          exact (Denotes.product other right).cast (by cases right; simp)
  | zeroTimes zero =>
      obtain rfl := (is_value_iff exact).1 zero
      rw [whole_number_eq exact]
      cases denotes with
      | product left right =>
          exact keeps_number ((Denotes.product left right).cast (by cases left; simp))
  | timesZero zero =>
      obtain rfl := (is_value_iff exact).1 zero
      rw [whole_number_eq exact]
      cases denotes with
      | product left right =>
          exact keeps_number ((Denotes.product left right).cast (by cases right; simp))
  | zeroOver zero =>
      obtain rfl := (is_value_iff exact).1 zero
      rw [whole_number_eq exact]
      cases denotes with
      | quotient left nonzero =>
          exact keeps_number ((Denotes.quotient left nonzero).cast (by cases left; simp))
  | overOne one =>
      obtain rfl := (is_value_iff exact).1 one
      cases denotes with
      | quotient left nonzero =>
          refine ⟨⟨_, left⟩, fun q other => ?_⟩
          exact (Denotes.quotient other nonzero).cast (by simp)
  | overSame same =>
      obtain rfl := eq_of_same exact same
      rw [whole_number_eq exact]
      cases denotes with
      | quotient left nonzero =>
          refine keeps_number ((Denotes.quotient left nonzero).cast ?_)
          cases left
          rw [← C_mul, inv_mul_cancel₀ nonzero, Nat.cast_one]
  | zeroPower zero =>
      obtain rfl := (is_value_iff exact).1 zero
      rw [whole_number_eq exact]
      have base : Denotes v (.num ((0 : ℕ) : ℚ)) 0 := (Denotes.number _).cast (by simp)
      cases denotes with
      | @power _ _ _ n left natural =>
          cases n with
          | zero => exact keeps_number ((Denotes.zeroToZero base natural).cast (by simp))
          | succ n => exact keeps_number ((Denotes.power base natural).cast (by simp))
      | zeroToZero left natural =>
          exact keeps_number ((Denotes.zeroToZero base natural).cast (by simp))
  | onePower one =>
      obtain rfl := (is_value_iff exact).1 one
      rw [whole_number_eq exact]
      cases denotes with
      | power left natural =>
          exact keeps_number ((Denotes.power left natural).cast (by cases left; simp))
      | zeroToZero left natural =>
          exact keeps_number ((Denotes.power left natural).cast (by simp))
  | powerZero zero =>
      obtain rfl := (is_value_iff exact).1 zero
      rw [whole_number_eq exact]
      cases denotes with
      | power left natural =>
          exact keeps_number ((Denotes.power left (.number 0)).cast (by simp))
      | zeroToZero left natural =>
          exact keeps_number ((Denotes.power left (.number 0)).cast (by simp))
  | powerOne one =>
      obtain rfl := (is_value_iff exact).1 one
      cases denotes with
      | power left natural =>
          refine ⟨⟨_, left⟩, fun q other => ?_⟩
          exact (Denotes.power other (.number 1)).cast (by simp)
      | zeroToZero left natural =>
          refine ⟨⟨_, left⟩, fun q other => ?_⟩
          exact (Denotes.power other (.number 1)).cast (by simp)

theorem Simplify.SignRule.keeps {sign : SignOp} (rule : SignRule sign operand tree)
    (denotes : Denotes v (.signed sign operand) p) : Keeps v (.signed sign operand) tree := by
  cases rule with
  | plus =>
      cases denotes with
      | plus inner => exact ⟨⟨_, inner⟩, fun q other => .plus other⟩
  | number minus value =>
      cases denotes with
      | plus inner => exact absurd rfl minus
      | minus inner =>
          rw [exact.neg]
          exact keeps_number ((Denotes.minus (.number value)).cast (by simp))
  | minusMinus minus inner =>
      cases denotes with
      | plus inner => exact absurd rfl minus
      | minus inner =>
          cases inner with
          | minus innermost =>
              refine ⟨⟨_, innermost⟩, fun q other => ?_⟩
              exact (Denotes.minus (.minus other)).cast (neg_neg q)
  | minusOther minus other inner =>
      cases denotes with
      | plus inner => exact absurd rfl minus
      | minus inner =>
          cases inner with
          | plus innermost =>
              refine ⟨⟨_, .minus innermost⟩, fun q other => ?_⟩
              cases other with
              | minus other => exact .minus (.plus other)
          | minus innermost => exact absurd rfl other

theorem keeps_fold {a b value : ℚ} (folds : op.fold a b = .ok (some value))
    (denotes : Denotes v (.binary op (.num a) (.num b)) p) :
    Keeps v (.binary op (.num a) (.num b)) (.num value) := by
  apply keeps_number
  cases denotes with
  | sum =>
      rw [BinaryOp.fold, exact.add] at folds
      cases folds
      exact (Denotes.sum (.number a) (.number b)).cast (by simp)
  | difference =>
      rw [BinaryOp.fold, exact.sub] at folds
      cases folds
      exact (Denotes.difference (.number a) (.number b)).cast (by simp)
  | product =>
      rw [BinaryOp.fold, exact.mul] at folds
      cases folds
      exact (Denotes.product (.number a) (.number b)).cast (by simp)
  | quotient left nonzero =>
      rw [BinaryOp.fold, exact.div nonzero] at folds
      cases folds
      exact (Denotes.quotient (.number a) nonzero).cast (by rw [← C_mul, div_eq_inv_mul])
  | power left natural | zeroToZero left natural =>
      have power : Denotes v _ _ := .power (.number a) natural
      cases natural with
      | number n =>
          rw [BinaryOp.fold, exact.pow] at folds
          cases folds
          exact power.cast (by simp)

end

/-- Rewriting loses no polynomial that a tree means. -/
theorem Simplify.Rewrites.keeps {p : ℚ[X]} (rewrites : Rewrites Scalar.tolerance tree tree')
    (denotes : Denotes v tree p) : Keeps v tree tree' := by
  induction rewrites generalizing p with
  | refl tree => exact ⟨⟨p, denotes⟩, fun q other => other⟩
  | trans before after first second =>
      have kept := first denotes
      obtain ⟨q, between⟩ := kept.1
      exact kept.trans (second between)
  | binary op left right first second =>
      cases denotes with
      | sum denotesLeft denotesRight => exact (first denotesLeft).sum (second denotesRight)
      | difference denotesLeft denotesRight =>
          exact (first denotesLeft).difference (second denotesRight)
      | product denotesLeft denotesRight =>
          exact (first denotesLeft).product (second denotesRight)
      | quotient denotesLeft nonzero =>
          cases right.of_number
          exact (first denotesLeft).quotient nonzero
      | power denotesLeft natural | zeroToZero denotesLeft natural =>
          exact (first denotesLeft).power natural (natural.rewrites exact right)
  | signed op inner induction =>
      cases denotes with
      | plus denotesInner => exact (induction denotesInner).plus
      | minus denotesInner => exact (induction denotesInner).minus
  | folded folds => exact keeps_fold exact folds denotes
  | binaryRule rule => exact rule.keeps exact denotes
  | signRule rule => exact rule.keeps exact denotes
  | marked | call | callRule => cases denotes

theorem Means.rewrites {p : ℚ[X]} (means : Means v tree p)
    (rewrites : Rewrites Scalar.tolerance tree tree') : Means v tree' p :=
  means.keeps (rewrites.keeps exact means.denotes)

end Fluxion
