import Fluxion.Proofs.Polynomial.Derivative

/-!
How deep the derivatives of a polynomial become. The product rule makes every product one
level deeper, and the power rule makes a power a product, so the depth of a derivative may
grow with the square of its order but no faster. The weight of a tree counts in advance the
levels that some more derivatives will add; products with zero, which optimization removes,
count for nothing. Main statements: a derivative weighs no more than its tree did with one
derivative more to come, optimization makes no tree heavier, and a tree at rest is no deeper
than it weighs.
-/

namespace Fluxion

open Polynomial Simplify Fluxion.Expr

namespace Expr

/-- The tree is zero because of the zeros in it. -/
def isNull : Expr ℚ → Bool
  | num value => value == 0
  | binary .add lhs rhs => lhs.isNull && rhs.isNull
  | binary .mul lhs rhs => lhs.isNull || rhs.isNull
  | _ => false

def isNumber : Expr ℚ → Bool
  | num _ => true
  | _ => false

/-- The depth that a tree is allowed for with so many derivatives to come. -/
def weight (order : Nat) : Expr ℚ → Nat
  | missing | num _ | var _ => 1
  | binary .add lhs rhs =>
      if lhs.isNull then rhs.weight order
      else if rhs.isNull then lhs.weight order
      else max (lhs.weight order) (rhs.weight order) + 1
  | binary .mul lhs rhs =>
      if lhs.isNull || rhs.isNull then 1
      else if lhs.isNumber || rhs.isNumber then max (lhs.weight order) (rhs.weight order) + 1
      else max (lhs.weight order) (rhs.weight order) + (order + 1)
  | binary .pow base _ => base.weight order + (order + 1) ^ 2
  | binary _ lhs rhs => max (lhs.weight order) (rhs.weight order) + 1
  | signed _ operand | marked _ operand | call _ operand => operand.weight order + 1

variable {order : Nat} {tree lhs rhs : Expr ℚ}

theorem weight_positive (order : Nat) (tree : Expr ℚ) : 0 < tree.weight order := by
  induction tree with
  | missing | num _ | var _ => exact Nat.one_pos
  | binary op lhs rhs left right =>
      cases op <;> simp only [weight] <;> (repeat' split) <;> omega
  | signed op operand | marked op operand | call name operand => exact Nat.succ_pos _

theorem weight_of_null (order : Nat) (null : tree.isNull = true) : tree.weight order = 1 := by
  induction tree with
  | num value => rfl
  | binary op lhs rhs left right =>
      cases op with
      | add =>
          simp only [isNull, Bool.and_eq_true] at null
          simp only [weight, null.1, if_true, right null.2]
      | mul =>
          simp only [isNull] at null
          simp only [weight, null, if_true]
      | _ => cases null
  | _ => cases null

theorem weight_sum_of_null (null : lhs.isNull = true ∨ rhs.isNull = true) :
    (binary .add lhs rhs).weight order = max (lhs.weight order) (rhs.weight order) := by
  have left := weight_positive order lhs
  have right := weight_positive order rhs
  rw [weight]
  by_cases nullLeft : lhs.isNull = true
  · have light := weight_of_null order nullLeft
    rw [if_pos nullLeft]
    omega
  · have nullRight := null.resolve_left nullLeft
    have light := weight_of_null order nullRight
    rw [if_neg nullLeft, if_pos nullRight]
    omega

theorem weight_sum (sound : ¬ (lhs.isNull = true ∨ rhs.isNull = true)) :
    (binary .add lhs rhs).weight order = max (lhs.weight order) (rhs.weight order) + 1 := by
  rw [not_or] at sound
  rw [weight, if_neg sound.1, if_neg sound.2]

theorem weight_sum_le (order : Nat) (lhs rhs : Expr ℚ) :
    (binary .add lhs rhs).weight order ≤ max (lhs.weight order) (rhs.weight order) + 1 := by
  by_cases null : lhs.isNull = true ∨ rhs.isNull = true
  · exact Nat.le_succ_of_le (weight_sum_of_null null).le
  · exact (weight_sum null).le

theorem weight_product_of_null (null : lhs.isNull = true ∨ rhs.isNull = true) :
    (binary .mul lhs rhs).weight order = 1 := by
  rw [weight, if_pos (Bool.or_eq_true_iff.2 null)]

theorem weight_multiple (sound : ¬ (lhs.isNull = true ∨ rhs.isNull = true))
    (number : lhs.isNumber = true ∨ rhs.isNumber = true) :
    (binary .mul lhs rhs).weight order = max (lhs.weight order) (rhs.weight order) + 1 := by
  rw [weight, if_neg (mt Bool.or_eq_true_iff.1 sound), if_pos (Bool.or_eq_true_iff.2 number)]

theorem weight_multiple_le (order : Nat) (number : lhs.isNumber = true ∨ rhs.isNumber = true) :
    (binary .mul lhs rhs).weight order ≤ max (lhs.weight order) (rhs.weight order) + 1 := by
  by_cases null : lhs.isNull = true ∨ rhs.isNull = true
  · rw [weight_product_of_null null]
    exact Nat.le_add_left 1 _
  · exact (weight_multiple null number).le

theorem weight_product (sound : ¬ (lhs.isNull = true ∨ rhs.isNull = true))
    (several : ¬ (lhs.isNumber = true ∨ rhs.isNumber = true)) :
    (binary .mul lhs rhs).weight order =
      max (lhs.weight order) (rhs.weight order) + (order + 1) := by
  rw [weight, if_neg (mt Bool.or_eq_true_iff.1 sound), if_neg (mt Bool.or_eq_true_iff.1 several)]

theorem weight_product_le (order : Nat) (lhs rhs : Expr ℚ) :
    (binary .mul lhs rhs).weight order ≤
      max (lhs.weight order) (rhs.weight order) + (order + 1) := by
  by_cases number : lhs.isNumber = true ∨ rhs.isNumber = true
  · have multiple := weight_multiple_le order number
    omega
  by_cases null : lhs.isNull = true ∨ rhs.isNull = true
  · rw [weight_product_of_null null]
    omega
  · exact (weight_product null number).le

theorem weight_product_comm (order : Nat) (lhs rhs : Expr ℚ) :
    (binary .mul lhs rhs).weight order = (binary .mul rhs lhs).weight order := by
  simp only [weight, Bool.or_comm, Nat.max_comm]

theorem weight_le_product (order : Nat) (sound : ¬ lhs.isNull = true) :
    rhs.weight order ≤ (binary .mul lhs rhs).weight order := by
  by_cases null : rhs.isNull = true
  · rw [weight_of_null _ null]
    exact weight_positive order _
  by_cases number : lhs.isNumber = true ∨ rhs.isNumber = true
  · rw [weight_multiple (not_or.2 ⟨sound, null⟩) number]
    omega
  · rw [weight_product (not_or.2 ⟨sound, null⟩) number]
    omega

theorem weight_succ (order : Nat) (tree : Expr ℚ) :
    tree.weight order ≤ tree.weight (order + 1) := by
  induction tree with
  | missing | num _ | var _ => exact Nat.le_refl _
  | binary op lhs rhs left right =>
      have square : (order + 1) ^ 2 ≤ (order + 1 + 1) ^ 2 := Nat.pow_le_pow_left (by omega) 2
      cases op <;> simp only [weight] <;> (repeat' split) <;> omega
  | signed op operand inner | marked op operand inner | call name operand inner =>
      exact Nat.succ_le_succ inner

theorem weight_le_height (order : Nat) (tree : Expr ℚ) :
    tree.weight order ≤ (order + 1) ^ 2 * tree.height := by
  have square : order + 1 ≤ (order + 1) ^ 2 := Nat.le_self_pow (by decide) _
  induction tree with
  | missing | num _ | var _ =>
      rw [height, weight, Nat.mul_one]
      omega
  | binary op lhs rhs left right =>
      have wider : max (lhs.weight order) (rhs.weight order) ≤
          (order + 1) ^ 2 * max lhs.height rhs.height := by
        rw [← Nat.mul_max_mul_left]
        omega
      rw [height, Nat.mul_add_one]
      cases op <;> simp only [weight] <;> (repeat' split) <;> omega
  | signed op operand inner | marked op operand inner | call name operand inner =>
      rw [height, weight, Nat.mul_add_one]
      omega

end Expr

variable [Scalar ℚ] {v : String} {order : Nat} {tree tree' raw : Expr ℚ} {p : ℚ[X]}

theorem Simplify.Rewrites.number {epsilon : ℚ} (rewrites : Rewrites epsilon tree tree')
    (number : tree.isNumber = true) : tree'.isNumber = true := by
  cases tree with
  | num value =>
      rw [rewrites.of_number]
      rfl
  | _ => cases number

variable (exact : ExactRationals)

include exact

theorem is_null_of_is_value (zero : isValue Scalar.tolerance tree 0 = true) :
    tree.isNull = true := by
  rw [(is_value_iff exact).1 zero]
  rfl

theorem Simplify.Rewrites.null (rewrites : Rewrites Scalar.tolerance tree tree')
    (null : tree.isNull = true) : tree'.isNull = true := by
  induction rewrites with
  | refl tree => exact null
  | trans before after first second => exact second (first null)
  | binary op left right first second =>
      cases op with
      | add =>
          simp only [isNull, Bool.and_eq_true] at null ⊢
          exact ⟨first null.1, second null.2⟩
      | mul =>
          simp only [isNull, Bool.or_eq_true] at null ⊢
          exact null.imp first second
      | _ => cases null
  | @folded op a b value folds =>
      cases op with
      | add =>
          rw [BinaryOp.fold, exact.add] at folds
          cases folds
          simp only [isNull, Bool.and_eq_true, beq_iff_eq] at null ⊢
          rw [null.1, null.2, add_zero]
      | mul =>
          rw [BinaryOp.fold, exact.mul] at folds
          cases folds
          simpa [isNull] using null
      | _ => cases null
  | @binaryRule op lhs rhs tree rule =>
      cases rule with
      | zeroPlus zero =>
          simp only [isNull, Bool.and_eq_true] at null
          exact null.2
      | plusZero zero =>
          simp only [isNull, Bool.and_eq_true] at null
          exact null.1
      | plusSame same =>
          simp only [isNull, Bool.and_eq_true, Bool.or_eq_true] at null ⊢
          exact .inr null.1
      | oneTimes one =>
          obtain rfl := (is_value_iff exact).1 one
          simpa [isNull] using null
      | timesOne one =>
          obtain rfl := (is_value_iff exact).1 one
          simpa [isNull] using null
      | zeroTimes zero | timesZero zero =>
          rw [whole_number_eq exact]
          rfl
      | _ => cases null
  | signed | marked | call | signRule | callRule => cases null

section

variable {op : BinaryOp} {lhs rhs : Expr ℚ}

theorem Simplify.BinaryRule.weight_le (rule : BinaryRule Scalar.tolerance op lhs rhs tree) :
    tree.weight order ≤ (Expr.binary op lhs rhs).weight order := by
  have left := weight_positive order lhs
  have right := weight_positive order rhs
  have whole := weight_positive order (Expr.binary op lhs rhs)
  cases rule with
  | zeroPlus zero =>
      rw [weight_sum_of_null (.inl (is_null_of_is_value exact zero))]
      omega
  | plusZero zero =>
      rw [weight_sum_of_null (.inr (is_null_of_is_value exact zero))]
      omega
  | plusSame same =>
      obtain rfl := eq_of_same exact same
      have double : (Expr.binary .mul (wholeNumber 2) lhs).weight order ≤
          max 1 (lhs.weight order) + 1 := weight_multiple_le order (.inl rfl)
      by_cases null : lhs.isNull = true
      · rw [weight_product_of_null (.inr null)]
        exact whole
      · rw [weight_sum (not_or.2 ⟨null, null⟩)]
        omega
  | minusZero | zeroMinus | overOne | powerOne =>
      simp only [weight]
      omega
  | oneTimes one =>
      obtain rfl := (is_value_iff exact).1 one
      exact weight_le_product order (by simp [isNull])
  | timesOne one =>
      obtain rfl := (is_value_iff exact).1 one
      rw [weight_product_comm]
      exact weight_le_product order (by simp [isNull])
  | minusSame | zeroTimes | timesZero | zeroOver | overSame | zeroPower | onePower | powerZero =>
      exact whole

end

theorem Simplify.Rewrites.weight_le (rewrites : Rewrites Scalar.tolerance tree tree') :
    tree'.weight order ≤ tree.weight order := by
  induction rewrites with
  | refl tree => exact Nat.le_refl _
  | trans before after first second => exact Nat.le_trans second first
  | @binary op lhs lhs' rhs rhs' left right first second =>
      cases op with
      | add =>
          by_cases null : lhs.isNull = true ∨ rhs.isNull = true
          · have null' := null.imp (left.null exact) (right.null exact)
            rw [weight_sum_of_null null, weight_sum_of_null null']
            omega
          · have sum := weight_sum_le order lhs' rhs'
            rw [weight_sum null]
            omega
      | mul =>
          by_cases null : lhs.isNull = true ∨ rhs.isNull = true
          · rw [weight_product_of_null (null.imp (left.null exact) (right.null exact))]
            exact weight_positive order _
          by_cases number : lhs.isNumber = true ∨ rhs.isNumber = true
          · have multiple := weight_multiple_le order (number.imp left.number right.number)
            rw [weight_multiple null number]
            omega
          · have product := weight_product_le order lhs' rhs'
            rw [weight_product null number]
            omega
      | pow => exact Nat.add_le_add_right first _
      | sub | div | other symbol =>
          simp only [weight]
          omega
  | signed op inner induction | marked op inner induction | call name inner induction =>
      exact Nat.succ_le_succ induction
  | folded folds => exact weight_positive order _
  | binaryRule rule => exact rule.weight_le exact
  | signRule rule =>
      cases rule with
      | plus => exact Nat.le_succ _
      | number => exact Nat.succ_pos _
      | minusMinus => exact Nat.le_add_right _ 2
      | minusOther => exact Nat.le_succ _
  | callRule rule => cases rule <;> exact Nat.succ_pos _

theorem null_of_irreducible {op : BinaryOp} {lhs rhs : Expr ℚ}
    (sumOrProduct : op = .add ∨ op = .mul)
    (irreducible : reduceBinary Scalar.tolerance op lhs rhs = none) :
    lhs ≠ .num 0 ∧ rhs ≠ .num 0 := by
  have zero {tree : Expr ℚ} (same : tree = .num 0) : isValue Scalar.tolerance tree 0 = true :=
    (is_value_iff exact).2 (by rw [same, Nat.cast_zero])
  rcases sumOrProduct with rfl | rfl
  · simp only [reduceBinary, reduceSum] at irreducible
    split at irreducible
    · cases irreducible
    · rename_i left
      split at irreducible
      · cases irreducible
      · rename_i right
        exact ⟨fun same => left (zero same), fun same => right (zero same)⟩
  · simp only [reduceBinary, reduceProduct, Bool.or_eq_true] at irreducible
    split at irreducible
    · cases irreducible
    split at irreducible
    · cases irreducible
    split at irreducible
    · cases irreducible
    · rename_i neither
      rw [not_or] at neither
      exact ⟨fun same => neither.1 (zero same), fun same => neither.2 (zero same)⟩

namespace Expr.IsPolynomial

theorem null_derivative_of_number (number : tree.isNumber = true)
    (derives : tree.DerivesTo v raw) : raw.isNull = true := by
  cases tree with
  | num value =>
      cases derives
      rw [exact.of_nat]
      rfl
  | _ => cases number

theorem null_derivative (polynomial : tree.IsPolynomial v p) (derives : tree.DerivesTo v raw)
    (null : tree.isNull = true) : raw.isNull = true := by
  induction polynomial generalizing raw with
  | number value => exact null_derivative_of_number exact rfl derives
  | sum left right first second =>
      cases derives with
      | sum derivesLeft derivesRight =>
          simp only [isNull, Bool.and_eq_true] at null ⊢
          exact ⟨first derivesLeft null.1, second derivesRight null.2⟩
  | product left right first second =>
      cases derives with
      | product derivesLeft derivesRight =>
          simp only [isNull, Bool.and_eq_true, Bool.or_eq_true] at null ⊢
          rcases null with null | null
          · exact ⟨.inl null, .inl (first derivesLeft null)⟩
          · exact ⟨.inr (second derivesRight null), .inr null⟩
  | _ => cases null

theorem weight_product_derivative {lhs rhs left right : Expr ℚ} {q : ℚ[X]}
    (first : lhs.IsPolynomial v p) (second : rhs.IsPolynomial v q)
    (derivesLeft : lhs.DerivesTo v left) (derivesRight : rhs.DerivesTo v right)
    (lighterLeft : left.weight order ≤ lhs.weight (order + 1))
    (lighterRight : right.weight order ≤ rhs.weight (order + 1)) :
    (Expr.binary .add (.binary .mul lhs right) (.binary .mul left rhs)).weight order ≤
      (Expr.binary .mul lhs rhs).weight (order + 1) := by
  have laterLeft := weight_succ order lhs
  have laterRight := weight_succ order rhs
  by_cases null : lhs.isNull = true ∨ rhs.isNull = true
  · have nullRaw := (product first second).null_derivative exact (.product derivesLeft derivesRight)
      (Bool.or_eq_true_iff.2 null)
    rw [weight_of_null _ nullRaw]
    exact weight_positive (order + 1) _
  by_cases number : lhs.isNumber = true ∨ rhs.isNumber = true
  · rw [weight_multiple null number]
    -- one of the two products of the rule is with zero
    rcases number with number | number
    · have nullLeft := null_derivative_of_number exact number derivesLeft
      have nullRight : (Expr.binary .mul left rhs).isNull = true :=
        Bool.or_eq_true_iff.2 (.inl nullLeft)
      have multiple : (Expr.binary .mul lhs right).weight order ≤
          max (lhs.weight order) (right.weight order) + 1 := weight_multiple_le order (.inl number)
      rw [weight_sum_of_null (.inr nullRight), weight_of_null _ nullRight]
      omega
    · have nullRight := null_derivative_of_number exact number derivesRight
      have nullLeft : (Expr.binary .mul lhs right).isNull = true :=
        Bool.or_eq_true_iff.2 (.inr nullRight)
      have multiple : (Expr.binary .mul left rhs).weight order ≤
          max (left.weight order) (rhs.weight order) + 1 := weight_multiple_le order (.inr number)
      rw [weight_sum_of_null (.inl nullLeft), weight_of_null _ nullLeft]
      omega
  · have sum := weight_sum_le order (.binary .mul lhs right) (.binary .mul left rhs)
    have before := weight_product_le order lhs right
    have behind := weight_product_le order left rhs
    rw [weight_product null number]
    omega

/-- A derivative weighs no more than its tree did with one derivative more to come. -/
theorem weight_derivative (polynomial : tree.IsPolynomial v p) (derives : tree.DerivesTo v raw) :
    raw.weight order ≤ tree.weight (order + 1) := by
  induction polynomial generalizing raw with
  | number value =>
      cases derives
      exact Nat.le_refl 1
  | itself => cases derives <;> exact Nat.le_refl 1
  | plus inner induction | minus inner induction =>
      cases derives with
      | sign op argument => exact Nat.succ_le_succ (induction argument)
  | @sum lhs rhs p q left right first second =>
      cases derives with
      | @sum _ _ lhs' rhs' derivesLeft derivesRight =>
          have lighterLeft := first derivesLeft
          have lighterRight := second derivesRight
          by_cases null : lhs.isNull = true ∨ rhs.isNull = true
          · have nullRaw := null.imp (left.null_derivative exact derivesLeft)
              (right.null_derivative exact derivesRight)
            rw [weight_sum_of_null null, weight_sum_of_null nullRaw]
            omega
          · have sum := weight_sum_le order lhs' rhs'
            rw [weight_sum null]
            omega
  | difference left right first second =>
      cases derives with
      | difference derivesLeft derivesRight =>
          have lighterLeft := first derivesLeft
          have lighterRight := second derivesRight
          simp only [weight]
          omega
  | product left right first second =>
      cases derives with
      | product derivesLeft derivesRight =>
          exact weight_product_derivative exact left right derivesLeft derivesRight
            (first derivesLeft) (second derivesRight)
  | @power base p n left positive first =>
      have later := weight_succ order base
      have square : (order + 1 + 1) ^ 2 = (order + 1) ^ 2 + 2 * order + 3 := by ring
      cases derives with
      | powerOfZero => exact weight_positive (order + 1) _
      | @power _ _ _ slope constant optimized nonzero derivesLeft =>
          cases optimize_number optimized
          have lighter := first derivesLeft
          generalize isLowered : Expr.binary .pow base (.binary .sub (.num (n : ℚ))
            (.num (Scalar.ofNat 1))) = lowered
          have weighs : lowered.weight order = base.weight order + (order + 1) ^ 2 := by
            rw [← isLowered, weight]
          have factor : (Expr.binary .mul (.num (n : ℚ)) lowered).weight order ≤
              max 1 (lowered.weight order) + 1 := weight_multiple_le order (.inl rfl)
          have product := weight_product_le order (.binary .mul (.num (n : ℚ)) lowered) slope
          have whole : (Expr.binary .pow base (.num (n : ℚ))).weight (order + 1) =
              base.weight (order + 1) + (order + 1 + 1) ^ 2 := by rw [weight]
          omega
      | exponential varying | generalPower varying => cases varying

/-- At rest, a tree is no deeper than it weighs, and only zero itself is null. -/
theorem height_le_weight (order : Nat) (built : tree.Built)
    (still : Settles Scalar.tolerance 0 tree) (polynomial : tree.IsPolynomial v p) :
    (tree.isNull = true → tree = .num 0) ∧ tree.height ≤ tree.weight order := by
  induction polynomial with
  | number value =>
      refine ⟨fun null => ?_, Nat.le_refl 1⟩
      rw [beq_iff_eq.1 null]
  | itself =>
      refine ⟨fun null => ?_, Nat.le_refl 1⟩
      cases null
  | plus inner induction | minus inner induction =>
      have low := (induction ((built_signed _ _).1 built).2 (still_signed built still).1).2
      refine ⟨fun null => ?_, Nat.succ_le_succ low⟩
      cases null
  | @sum lhs rhs p q left right first second =>
      obtain ⟨-, builtLeft, builtRight⟩ := (built_binary _ _ _).1 built
      obtain ⟨stillLeft, stillRight, irreducible⟩ := still_binary built still
      obtain ⟨zeroLeft, lowLeft⟩ := first builtLeft stillLeft
      obtain ⟨zeroRight, lowRight⟩ := second builtRight stillRight
      obtain ⟨soundLeft, soundRight⟩ := null_of_irreducible exact (.inl rfl) irreducible
      have sound : ¬ (lhs.isNull = true ∨ rhs.isNull = true) :=
        not_or.2 ⟨mt zeroLeft soundLeft, mt zeroRight soundRight⟩
      refine ⟨fun null => absurd (.inl (Bool.and_eq_true_iff.1 null).1) sound, ?_⟩
      rw [weight_sum sound, height]
      omega
  | difference left right first second =>
      obtain ⟨-, builtLeft, builtRight⟩ := (built_binary _ _ _).1 built
      obtain ⟨stillLeft, stillRight, -⟩ := still_binary built still
      have lowLeft := (first builtLeft stillLeft).2
      have lowRight := (second builtRight stillRight).2
      constructor
      · intro null
        cases null
      · simp only [height, weight]
        omega
  | @product lhs rhs p q left right first second =>
      obtain ⟨-, builtLeft, builtRight⟩ := (built_binary _ _ _).1 built
      obtain ⟨stillLeft, stillRight, irreducible⟩ := still_binary built still
      obtain ⟨zeroLeft, lowLeft⟩ := first builtLeft stillLeft
      obtain ⟨zeroRight, lowRight⟩ := second builtRight stillRight
      obtain ⟨soundLeft, soundRight⟩ := null_of_irreducible exact (.inr rfl) irreducible
      have sound : ¬ (lhs.isNull = true ∨ rhs.isNull = true) :=
        not_or.2 ⟨mt zeroLeft soundLeft, mt zeroRight soundRight⟩
      refine ⟨fun null => absurd (Bool.or_eq_true_iff.1 null) sound, ?_⟩
      by_cases number : lhs.isNumber = true ∨ rhs.isNumber = true
      · rw [weight_multiple sound number, height]
        omega
      · rw [weight_product sound number, height]
        omega
  | @power base p n left positive first =>
      obtain ⟨-, builtLeft, -⟩ := (built_binary _ _ _).1 built
      have low := (first builtLeft (still_binary built still).1).2
      have bounded := height_positive base
      have square : 0 < (order + 1) ^ 2 := Nat.pow_pos (Nat.succ_pos order)
      constructor
      · intro null
        cases null
      · simp only [height, weight]
        omega

end Expr.IsPolynomial

end Fluxion
