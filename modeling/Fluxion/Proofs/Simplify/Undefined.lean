import Fluxion.Proofs.Simplify.Folding

/-!
Calculations that have no value. Folding leaves such a calculation without one. The identities
of simplification do not ask whether an operand has a value before they drop it, nor whether a
number is zero or one or only close to it, so simplification may end in a number. Main
statement: where it does, some identity was used at a node for which it gives a value that the
node does not have, and that takes an operand without a value, zero to the power of zero, or a
number within the tolerance.
-/

namespace Fluxion

open Outcome Scalar Reading Simplify

variable {α : Type} [Scalar α]

namespace Expr

def Calculation : Expr α → Prop
  | num value => isFinite value = true
  | binary op lhs rhs => op.isKnown = true ∧ lhs.Calculation ∧ rhs.Calculation
  | signed op operand => op.isKnown = true ∧ operand.Calculation
  | missing | var _ | marked _ _ | call _ _ => False

instance decidableCalculation : (tree : Expr α) → Decidable tree.Calculation
  | num value => inferInstanceAs (Decidable (isFinite value = true))
  | binary op lhs rhs =>
      have := decidableCalculation lhs
      have := decidableCalculation rhs
      inferInstanceAs (Decidable (op.isKnown = true ∧ lhs.Calculation ∧ rhs.Calculation))
  | signed op operand =>
      have := decidableCalculation operand
      inferInstanceAs (Decidable (op.isKnown = true ∧ operand.Calculation))
  | missing | var _ | marked _ _ | call _ _ => isFalse id

variable {tree : Expr α}

theorem Calculation.built (calculation : tree.Calculation) : tree.Built := by
  induction tree with
  | num value => exact built_num value
  | binary op lhs rhs left right =>
      obtain ⟨known, calculationLeft, calculationRight⟩ := calculation
      exact (built_binary _ _ _).2 ⟨known, left calculationLeft, right calculationRight⟩
  | signed op operand inner => exact (built_signed _ _).2 ⟨calculation.1, inner calculation.2⟩
  | missing | var | marked | call => exact calculation.elim

theorem Calculation.child {part : Expr α} (calculation : tree.Calculation)
    (child : part ∈ tree.children) : part.Calculation := by
  cases tree with
  | binary op lhs rhs =>
      simp only [children, List.mem_cons, List.not_mem_nil, or_false] at child
      rcases child with rfl | rfl
      · exact calculation.2.1
      · exact calculation.2.2
  | signed op operand =>
      cases List.mem_singleton.1 child
      exact calculation.2
  | num => simp [children] at child
  | missing | var | marked | call => exact calculation.elim

theorem Within.calculation {node : Expr α} (within : node.Within tree)
    (calculation : tree.Calculation) : node.Calculation := by
  induction within with
  | root => exact calculation
  | under child within inner => exact inner (calculation.child child)

theorem Calculation.evaluate_in (calculation : tree.Calculation) (bindings bindings' : Bindings α) :
    tree.evaluateIn bindings = tree.evaluateIn bindings' := by
  induction tree with
  | num value => rfl
  | binary op lhs rhs left right =>
      rw [evaluateIn, evaluateIn, left calculation.2.1, right calculation.2.2]
  | signed op operand inner => rw [evaluateIn, evaluateIn, inner calculation.2]
  | missing | var | marked | call => exact calculation.elim

theorem Calculation.fault (calculation : tree.Calculation) {bindings : Bindings α} {fault : Fault}
    (raises : tree.evaluateIn bindings = .error fault) :
    ∃ reason, fault = .evaluation reason := by
  induction tree generalizing fault with
  | num value => cases raises
  | binary op lhs rhs left right =>
      simp only [evaluateIn, bind_eq_error] at raises
      rcases raises with raises | ⟨a, -, raises | ⟨b, -, raises | ⟨result, -, raises⟩⟩⟩
      · exact left calculation.2.1 raises
      · exact right calculation.2.2 raises
      · obtain ⟨result, folds⟩ := fold_known calculation.1 a b
        rw [raises] at folds
        cases folds
      · cases result with
        | some value => cases raises
        | none => exact ⟨_, (throw_eq_error.1 raises).symm⟩
  | signed op operand inner =>
      simp only [evaluateIn, bind_eq_error, pure_eq_error, and_false, exists_false,
        or_false] at raises
      exact inner calculation.2 raises
  | missing | var | marked | call => exact calculation.elim

end Expr

namespace Simplify

/-- One use of an identity in a pass over the tree: a node is found over its simplified
children and replaced. -/
def Replaces (epsilon : α) (tree found reduct : Expr α) : Prop :=
  ∃ node below, node.Within tree ∧ Found (simplify epsilon) node found below ∧
    simplify epsilon node = .ok ⟨reduct, true⟩ ∧ SimplifyRule epsilon found reduct

/-- The trees that the sweeps of an optimization start from. -/
inductive Swept (epsilon : α) (source : Expr α) : Expr α → Prop
  | source : Swept epsilon source source
  | next {tree : Expr α} {pass : Pass α} (before : Swept epsilon source tree)
      (swept : sweep epsilon tree = .ok pass) : Swept epsilon source pass.tree

/-- The reduct has a value that the node does not have, up to the sign of a zero. -/
def Invents (bindings : Bindings α) (found reduct : Expr α) : Prop :=
  ∃ value, reduct.evaluateIn bindings = .ok value ∧
    ∀ own, found.evaluateIn bindings = .ok own → ¬ Alike own value

/-- A pass over the tree that invents no value. -/
def Honest (epsilon : α) (bindings : Bindings α) (tree : Expr α) : Prop :=
  ∀ found reduct, Replaces epsilon tree found reduct → ¬ Invents bindings found reduct

/-- A number that counts as zero or one but is neither. -/
def Mistaken (epsilon : α) (operand : Expr α) : Prop :=
  ∃ value n, operand = .num value ∧ n ≤ 1 ∧ near epsilon value (ofNat n) = true ∧
    same value (ofNat n) = false

/-- Where an identity does not hold: zero or one is put for a node without a value, zero for
zero to the power of zero, or a number is mistaken for zero or one. -/
inductive Unsound (epsilon : α) (bindings : Bindings α) : Expr α → Expr α → Prop
  | undefined {found : Expr α} {fault : Fault} {n : Nat}
      (raises : found.evaluateIn bindings = .error fault) (whole : n ≤ 1) :
      Unsound epsilon bindings found (wholeNumber n)
  | zeroToZero {lhs rhs : Expr α} {a b : α} (left : lhs.evaluateIn bindings = .ok a)
      (right : rhs.evaluateIn bindings = .ok b) (zeroLeft : Alike a (ofNat 0))
      (zeroRight : Alike b (ofNat 0)) :
      Unsound epsilon bindings (.binary .pow lhs rhs) (wholeNumber 0)
  | mistaken {op : BinaryOp} {lhs rhs reduct : Expr α}
      (close : Mistaken epsilon lhs ∨ Mistaken epsilon rhs) :
      Unsound epsilon bindings (.binary op lhs rhs) reduct

section

variable {epsilon : α} {tree found reduct : Expr α} {bindings : Bindings α}

theorem Honest.child {part : Expr α} (honest : Honest epsilon bindings tree)
    (child : part ∈ tree.children) : Honest epsilon bindings part := by
  rintro found reduct ⟨node, below, within, rest⟩
  exact honest found reduct ⟨node, below, .under child within, rest⟩

/-- What a pass leaves of a node has no value that the node, as it was found, does not have. -/
theorem turn_value {node : Expr α} {below : Bool} {pass : Pass α} {value : α}
    (honest : Honest epsilon bindings node)
    (reached : Found (simplify epsilon) node found below)
    (done : simplify epsilon node = .ok pass) (turned : Turns (SimplifyRule epsilon) found below pass)
    (valued : pass.tree.evaluateIn bindings = .ok value) :
    ∃ own, found.evaluateIn bindings = .ok own ∧ Alike own value := by
  rcases turned with ⟨reduct, rule, rfl⟩ | ⟨-, rfl⟩
  · by_contra none
    refine honest found reduct ⟨node, below, .root, reached, done, rule⟩ ⟨value, valued, ?_⟩
    exact fun own evaluates close => none ⟨own, evaluates, close⟩
  · exact ⟨value, valued, .inl rfl⟩

variable (identities : Identities α)

include identities

/-- A pass that invents no value leaves none that the tree does not have. -/
theorem simplify_value (calculation : tree.Calculation) (honest : Honest epsilon bindings tree)
    {pass : Pass α} (done : simplify epsilon tree = .ok pass) {value : α}
    (valued : pass.tree.evaluateIn bindings = .ok value) :
    ∃ own, tree.evaluateIn bindings = .ok own ∧ Alike own value := by
  have alike := identities.alike_equivalence
  have applies := simplify_applies epsilon
  induction tree generalizing pass value with
  | num number =>
      cases done
      exact ⟨value, valued, alike.refl value⟩
  | binary op lhs rhs left right =>
      have valid := calculation.built.valid
      obtain ⟨passLeft, doneLeft, -⟩ := applies.faithful valid.2.1
      obtain ⟨passRight, doneRight, -⟩ := applies.faithful valid.2.2
      have reached : Found (simplify epsilon) (.binary op lhs rhs) _ _ := .binary doneLeft doneRight
      obtain ⟨_, done', turned⟩ := applies.turns valid reached
      cases done.symm.trans done'
      obtain ⟨c, evaluates, close⟩ := turn_value honest reached done turned valued
      obtain ⟨a, b, valueLeft, valueRight, folds⟩ := evaluate_binary.1 evaluates
      have honestLeft : Honest epsilon bindings lhs := honest.child (by simp [Expr.children])
      have honestRight : Honest epsilon bindings rhs := honest.child (by simp [Expr.children])
      obtain ⟨a', ownLeft, closeLeft⟩ := left calculation.2.1 honestLeft doneLeft valueLeft
      obtain ⟨b', ownRight, closeRight⟩ := right calculation.2.2 honestRight doneRight valueRight
      obtain ⟨c', folds', close'⟩ :=
        identities.fold_alike (alike.symm closeLeft) (alike.symm closeRight) folds
      exact ⟨c', evaluate_binary.2 ⟨a', b', ownLeft, ownRight, folds'⟩, alike.trans close' close⟩
  | signed op operand inner =>
      have valid := calculation.built.valid
      obtain ⟨passInner, doneInner, -⟩ := applies.faithful valid.2
      have reached : Found (simplify epsilon) (.signed op operand) _ _ := .signed doneInner
      obtain ⟨_, done', turned⟩ := applies.turns valid reached
      cases done.symm.trans done'
      obtain ⟨c, evaluates, close⟩ := turn_value honest reached done turned valued
      obtain ⟨a, valueInner, rfl⟩ := evaluate_signed.1 evaluates
      have honestInner : Honest epsilon bindings operand := honest.child (by simp [Expr.children])
      obtain ⟨a', own, closeInner⟩ := inner calculation.2 honestInner doneInner valueInner
      refine ⟨_, evaluate_signed.2 ⟨a', own, rfl⟩, alike.trans ?_ close⟩
      split
      · exact identities.neg_alike closeInner
      · exact closeInner
  | missing | var | marked | call => exact calculation.elim

end

section

variable {epsilon : α} {tree tree' found reduct : Expr α} {bindings : Bindings α}
  (results : Results α)

include results

theorem Rewrites.calculation (rewrites : Rewrites epsilon tree tree')
    (calculation : tree.Calculation) : tree'.Calculation := by
  induction rewrites with
  | refl => exact calculation
  | trans _ _ first second => exact second (first calculation)
  | binary _ _ _ first second =>
      exact ⟨calculation.1, first calculation.2.1, second calculation.2.2⟩
  | signed _ _ inner => exact ⟨calculation.1, inner calculation.2⟩
  | folded folds => exact results.fold_finite folds
  | binaryRule rule =>
      obtain ⟨-, left, right⟩ := calculation
      have zero : (wholeNumber 0 : Expr α).Calculation := results.whole_finite (by decide)
      have one : (wholeNumber 1 : Expr α).Calculation := results.whole_finite (by decide)
      have two : (wholeNumber 2 : Expr α).Calculation := results.whole_finite (by decide)
      cases rule with
      | zeroPlus | oneTimes => exact right
      | plusZero | minusZero | timesOne | overOne | powerOne => exact left
      | plusSame => exact ⟨rfl, two, left⟩
      | zeroMinus => exact ⟨rfl, right⟩
      | minusSame | zeroTimes | timesZero | zeroOver | zeroPower => exact zero
      | overSame | onePower | powerZero => exact one
  | signRule rule =>
      cases rule with
      | plus => exact calculation.2
      | number => exact results.neg_finite calculation.2
      | minusMinus => exact calculation.2.2
      | minusOther => exact ⟨rfl, calculation.2.2⟩
  | marked | call | callRule => exact calculation.elim

theorem value_finite (calculation : tree.Calculation) {a : α}
    (evaluates : tree.evaluateIn bindings = .ok a) : isFinite a = true := by
  induction tree generalizing a with
  | num value =>
      cases evaluates
      exact calculation
  | binary op lhs rhs =>
      obtain ⟨_, _, -, -, folds⟩ := evaluate_binary.1 evaluates
      exact results.fold_finite folds
  | signed op operand inner =>
      obtain ⟨b, value, rfl⟩ := evaluate_signed.1 evaluates
      have finite := inner calculation.2 value
      split
      · exact results.neg_finite finite
      · exact finite
  | missing | var | marked | call => exact calculation.elim

variable (identities : Identities α)

include identities

theorem sweep_value (calculation : tree.Calculation)
    (honest : Honest epsilon bindings tree.collapse)
    {pass : Pass α} (swept : sweep epsilon tree = .ok pass) {value : α}
    (valued : pass.tree.evaluateIn bindings = .ok value) :
    ∃ own, tree.evaluateIn bindings = .ok own ∧ Alike own value := by
  obtain ⟨folded, simplified, doneFold, doneSimplify, rfl⟩ := sweep_parts swept
  obtain ⟨changed, collapsed⟩ := fold_collapses calculation.built.valid
  cases doneFold.symm.trans collapsed
  have calculation' := (fold_rewrites epsilon collapsed).calculation results calculation
  rw [← Expr.evaluate_collapse]
  exact simplify_value identities calculation' honest doneSimplify valued

theorem sweeps_value {source : Expr α} {left before : Nat} {result : Optimized α} {value : α}
    (swept : Swept epsilon source tree) (calculation : tree.Calculation)
    (honest : ∀ current, Swept epsilon source current → Honest epsilon bindings current.collapse)
    (done : sweepsFrom epsilon left before tree = .ok result)
    (valued : result.tree.evaluateIn bindings = .ok value) :
    ∃ own, tree.evaluateIn bindings = .ok own ∧ Alike own value := by
  induction left generalizing before tree with
  | zero => cases done
  | succ left induction =>
      simp only [sweepsFrom, bind_eq_ok] at done
      obtain ⟨pass, sweeps, done⟩ := done
      have honestSweep := honest tree swept
      split at done
      · obtain ⟨between, evaluates, close⟩ := induction (swept.next sweeps)
          ((sweep_rewrites sweeps).calculation results calculation) done
        obtain ⟨own, evaluates', close'⟩ :=
          sweep_value results identities calculation honestSweep sweeps evaluates
        exact ⟨own, evaluates', identities.alike_equivalence.trans close' close⟩
      · cases pure_eq_ok.1 done
        exact sweep_value results identities calculation honestSweep sweeps valued

end

theorem value_of_counted {epsilon : α} {operand : Expr α} (exact : ¬ Mistaken epsilon operand)
    {n : Nat} (least : n ≤ 1) (counts : isValue epsilon operand n = true) :
    ∃ value, operand = .num value ∧ Alike value (ofNat n) := by
  cases operand with
  | num value =>
      refine ⟨value, rfl, .inr ?_⟩
      by_contra differs
      exact exact ⟨value, n, rfl, least, counts, by simpa using differs⟩
  | _ => cases counts

section

variable {epsilon : α} {found reduct lhs rhs : Expr α} {op : BinaryOp} {bindings : Bindings α}
  (identities : Identities α)

include identities

/-- An operator has a value beside a number if it has one beside a number that is like it. -/
theorem defined_of_left {v w c d : α} (close : Alike v w) (folds : op.fold w d = .ok (some c))
    (valued : rhs.evaluateIn bindings = .ok d) :
    ∃ c', (Expr.binary op (.num v) rhs).evaluateIn bindings = .ok c' := by
  have alike := identities.alike_equivalence
  obtain ⟨c', folds', -⟩ := identities.fold_alike (alike.symm close) (alike.refl d) folds
  exact ⟨c', evaluate_binary.2 ⟨v, d, rfl, valued, folds'⟩⟩

theorem defined_of_right {v w c d : α} (close : Alike v w) (folds : op.fold d w = .ok (some c))
    (valued : lhs.evaluateIn bindings = .ok d) :
    ∃ c', (Expr.binary op lhs (.num v)).evaluateIn bindings = .ok c' := by
  have alike := identities.alike_equivalence
  obtain ⟨c', folds', -⟩ := identities.fold_alike (alike.refl d) (alike.symm close) folds
  exact ⟨c', evaluate_binary.2 ⟨d, v, valued, rfl, folds'⟩⟩

theorem same_evaluates {a : α} (left : lhs.Calculation) (right : rhs.Calculation)
    (same : lhs.same rhs = true) (valued : lhs.evaluateIn bindings = .ok a) :
    ∃ b, rhs.evaluateIn bindings = .ok b ∧ Alike b a := by
  have lawful := evaluation_lawful identities Bindings.constants rfl
  rw [left.evaluate_in bindings Bindings.constants] at valued
  rw [right.evaluate_in bindings Bindings.constants]
  obtain ⟨b, valued', close⟩ := lawful.same_value same (evaluate_iff_value.1 valued)
  exact ⟨b, evaluate_iff_value.2 valued', close⟩

variable (results : Results α)

include results

/-- A reduct that has a value has it from the node, unless it is zero or one by itself. -/
theorem BinaryRule.origin {d : α} (rule : BinaryRule epsilon op lhs rhs reduct)
    (left : lhs.Calculation) (right : rhs.Calculation) (exactLeft : ¬ Mistaken epsilon lhs)
    (exactRight : ¬ Mistaken epsilon rhs)
    (valued : reduct.evaluateIn bindings = .ok d) :
    (∃ c, (Expr.binary op lhs rhs).evaluateIn bindings = .ok c) ∨
      ∃ n ≤ 1, reduct = wholeNumber n := by
  cases rule with
  | zeroPlus zero =>
      obtain ⟨v, rfl, close⟩ := value_of_counted exactLeft (Nat.zero_le 1) zero
      obtain ⟨c, sum⟩ := results.zero_add (value_finite results right valued)
      exact .inl (defined_of_left identities close (fold_some.2 sum) valued)
  | plusZero zero =>
      obtain ⟨v, rfl, close⟩ := value_of_counted exactRight (Nat.zero_le 1) zero
      obtain ⟨c, sum⟩ := results.add_zero (value_finite results left valued)
      exact .inl (defined_of_right identities close (fold_some.2 sum) valued)
  | plusSame same =>
      obtain ⟨two, l, isTwo, valueLeft, product⟩ := evaluate_binary.1 valued
      cases isTwo
      obtain ⟨r, valueRight, close⟩ := same_evaluates identities left right same valueLeft
      obtain ⟨c, sum⟩ :=
        results.add_self (value_finite results left valueLeft) (fold_some.1 product)
      have alike := identities.alike_equivalence
      have folds : BinaryOp.add.fold l l = .ok (some c) := fold_some.2 sum
      obtain ⟨c', folds', -⟩ := identities.fold_alike (alike.refl l) (alike.symm close) folds
      exact .inl ⟨c', evaluate_binary.2 ⟨l, r, valueLeft, valueRight, folds'⟩⟩
  | minusZero zero =>
      obtain ⟨v, rfl, close⟩ := value_of_counted exactRight (Nat.zero_le 1) zero
      obtain ⟨c, difference⟩ := results.sub_zero (value_finite results left valued)
      exact .inl (defined_of_right identities close (fold_some.2 difference) valued)
  | zeroMinus zero =>
      obtain ⟨v, rfl, close⟩ := value_of_counted exactLeft (Nat.zero_le 1) zero
      obtain ⟨r, valueRight, -⟩ := evaluate_signed.1 valued
      obtain ⟨c, difference⟩ := results.zero_sub (value_finite results right valueRight)
      exact .inl (defined_of_left identities close (fold_some.2 difference) valueRight)
  | oneTimes one =>
      obtain ⟨v, rfl, close⟩ := value_of_counted exactLeft (Nat.le_refl 1) one
      obtain ⟨c, product⟩ := results.one_mul (value_finite results right valued)
      exact .inl (defined_of_left identities close (fold_some.2 product) valued)
  | timesOne one =>
      obtain ⟨v, rfl, close⟩ := value_of_counted exactRight (Nat.le_refl 1) one
      obtain ⟨c, product⟩ := results.mul_one (value_finite results left valued)
      exact .inl (defined_of_right identities close (fold_some.2 product) valued)
  | overOne one =>
      obtain ⟨v, rfl, close⟩ := value_of_counted exactRight (Nat.le_refl 1) one
      obtain ⟨c, quotient⟩ := results.div_one (value_finite results left valued)
      exact .inl (defined_of_right identities close (fold_some.2 quotient) valued)
  | powerOne one =>
      obtain ⟨v, rfl, close⟩ := value_of_counted exactRight (Nat.le_refl 1) one
      obtain ⟨c, power⟩ := results.pow_one (value_finite results left valued)
      exact .inl (defined_of_right identities close (fold_some.2 power) valued)
  | minusSame | zeroTimes | timesZero | zeroOver | zeroPower =>
      exact .inr ⟨0, Nat.zero_le 1, rfl⟩
  | overSame | onePower | powerZero => exact .inr ⟨1, Nat.le_refl 1, rfl⟩

/-- A rule keeps the value of a calculation if it mistakes no operand and does not put zero for
zero to the power of zero. -/
theorem BinaryRule.evaluates {c : α} (rule : BinaryRule epsilon op lhs rhs reduct)
    (calculation : (Expr.binary op lhs rhs).Calculation)
    (sound : ¬ Unsound epsilon bindings (.binary op lhs rhs) reduct)
    (valued : (Expr.binary op lhs rhs).evaluateIn bindings = .ok c) :
    ∃ d, reduct.evaluateIn bindings = .ok d ∧ Alike d c := by
  have rewritten := (Rewrites.binaryRule rule).calculation results calculation
  obtain ⟨a, b, valueLeft, valueRight, folds⟩ := evaluate_binary.1 valued
  have exact {operand : Expr α} {a : α} (exact : ¬ Mistaken epsilon operand)
      (value : operand.evaluateIn bindings = .ok a) (n : Nat) (least : n ≤ 1)
      (counts : isValue epsilon operand n = true) : Alike a (ofNat n) := by
    obtain ⟨v, rfl, close⟩ := value_of_counted exact least counts
    cases value
    exact close
  have exactLeft := exact (fun close => sound (.mistaken (.inl close))) valueLeft
  have exactRight := exact (fun close => sound (.mistaken (.inr close))) valueRight
  have noZeroToZero (power : op = .pow) (none : reduct = wholeNumber 0) :
      ¬ (Alike a (ofNat 0) ∧ Alike b (ofNat 0)) := by
    rintro ⟨zeroLeft, zeroRight⟩
    subst power none
    exact sound (.zeroToZero valueLeft valueRight zeroLeft zeroRight)
  -- The laws of evaluation are those of bindings in which Euler's number has its name.
  have lawful := evaluation_lawful identities Bindings.constants rfl
  rw [calculation.2.1.evaluate_in bindings Bindings.constants] at valueLeft
  rw [calculation.2.2.evaluate_in bindings Bindings.constants] at valueRight
  rw [rewritten.evaluate_in bindings Bindings.constants]
  obtain ⟨d, valued', close⟩ := rule.value lawful (evaluate_iff_value.1 valueLeft)
    (evaluate_iff_value.1 valueRight) (operate_evaluation.2 folds) exactLeft exactRight noZeroToZero
  exact ⟨d, evaluate_iff_value.2 valued', close⟩

theorem BinaryRule.unsound (rule : BinaryRule epsilon op lhs rhs reduct)
    (calculation : (Expr.binary op lhs rhs).Calculation)
    (invents : Invents bindings (.binary op lhs rhs) reduct) :
    Unsound epsilon bindings (.binary op lhs rhs) reduct := by
  obtain ⟨d, valued, different⟩ := invents
  by_contra sound
  have exactLeft : ¬ Mistaken epsilon lhs := fun close => sound (.mistaken (.inl close))
  have exactRight : ¬ Mistaken epsilon rhs := fun close => sound (.mistaken (.inr close))
  obtain ⟨c, evaluates⟩ : ∃ c, (Expr.binary op lhs rhs).evaluateIn bindings = .ok c := by
    rcases rule.origin identities results calculation.2.1 calculation.2.2 exactLeft exactRight
      valued with found | ⟨n, least, rfl⟩
    · exact found
    · cases outcome : (Expr.binary op lhs rhs).evaluateIn bindings with
      | ok c => exact ⟨c, rfl⟩
      | error fault => exact absurd (.undefined outcome least) sound
  obtain ⟨d', valued', close⟩ := rule.evaluates identities results calculation sound evaluates
  cases valued.symm.trans valued'
  exact different c evaluates (identities.alike_equivalence.symm close)

omit results in
theorem SignRule.honest {op : SignOp} {operand : Expr α} (rule : SignRule op operand reduct)
    (known : op.isKnown = true) : ¬ Invents bindings (.signed op operand) reduct := by
  rintro ⟨d, valued, different⟩
  cases rule with
  | plus => exact different d (evaluate_signed.2 ⟨d, valued, rfl⟩) (.inl rfl)
  | number minus v =>
      obtain rfl := eq_minus known minus
      exact different d (evaluate_signed.2 ⟨v, rfl, Except.ok.inj valued⟩) (.inl rfl)
  | minusMinus minus =>
      obtain rfl := eq_minus known minus
      exact different _ (evaluate_signed.2 ⟨_, evaluate_signed.2 ⟨d, valued, rfl⟩, rfl⟩)
        (identities.neg_neg d)
  | minusOther minus other =>
      obtain rfl := eq_minus known minus
      obtain ⟨inner, valueInner, rfl⟩ := evaluate_signed.1 valued
      exact different _ (evaluate_signed.2 ⟨_, evaluate_signed.2 ⟨inner, valueInner, rfl⟩, rfl⟩)
        (.inl (by rw [if_neg other]))

end

section

variable {epsilon : α} {tree found reduct : Expr α} (identities : Identities α)
  (results : Results α)

include results

theorem Swept.calculation {current : Expr α} (swept : Swept epsilon tree current)
    (calculation : tree.Calculation) : current.Calculation ∧ current.collapse.Calculation := by
  have current : current.Calculation := by
    induction swept with
    | source => exact calculation
    | next _ done inner => exact (sweep_rewrites done).calculation results inner
  obtain ⟨changed, folded⟩ := fold_collapses current.built.valid
  exact ⟨current, (fold_rewrites epsilon folded).calculation results current⟩

theorem Replaces.calculation (replaces : Replaces epsilon tree found reduct)
    (calculation : tree.Calculation) : found.Calculation := by
  obtain ⟨node, below, within, reached, -⟩ := replaces
  have calculation := within.calculation calculation
  cases reached with
  | num => exact calculation
  | binary visitedLeft visitedRight =>
      exact ⟨calculation.1, (simplify_rewrites visitedLeft).calculation results calculation.2.1,
        (simplify_rewrites visitedRight).calculation results calculation.2.2⟩
  | signed visited =>
      exact ⟨calculation.1, (simplify_rewrites visited).calculation results calculation.2⟩
  | var | marked | call => exact calculation.elim

include identities

theorem Replaces.unsound {bindings : Bindings α} (replaces : Replaces epsilon tree found reduct)
    (calculation : tree.Calculation) (invents : Invents bindings found reduct) :
    Unsound epsilon bindings found reduct := by
  have calculation := replaces.calculation results calculation
  obtain ⟨node, below, within, reached, done, rule⟩ := replaces
  cases rule with
  | binary rule => exact rule.unsound identities results calculation invents
  | signed rule => exact absurd invents (rule.honest identities calculation.1)
  | call => exact calculation.elim

end

/-- A calculation without a value is not folded to a number. Where it is optimized to one, a
sweep has used an identity that gives a node a value that the node does not have, and which
does not hold there. -/
theorem undefined_to_number {epsilon : α} {tree : Expr α} {bindings : Bindings α} {fault : Fault}
    (identities : Identities α) (results : Results α) (calculation : tree.Calculation)
    (raises : tree.evaluateIn bindings = .error fault) :
    (∃ pass, foldConstants tree = .ok pass ∧ pass.tree.number? = none ∧
      pass.tree.evaluateIn bindings = .error fault) ∧
    ∀ value sweeps, run epsilon tree = .ok ⟨.num value, sweeps⟩ →
      ∃ current found reduct, Swept epsilon tree current ∧
        Replaces epsilon current.collapse found reduct ∧ Invents bindings found reduct ∧
        Unsound epsilon bindings found reduct := by
  constructor
  · obtain ⟨changed, folded⟩ := fold_collapses calculation.built.valid
    have still := (tree.evaluate_collapse bindings).trans raises
    refine ⟨_, folded, ?_, still⟩
    cases number : tree.collapse.number? with
    | none => rfl
    | some value =>
        rw [Expr.number_some number] at still
        cases still
  · intro value sweeps done
    by_contra sound
    have honest (current : Expr α) (swept : Swept epsilon tree current) :
        Honest epsilon bindings current.collapse := by
      intro found reduct replaces invents
      have folded := (swept.calculation results calculation).2
      exact sound ⟨current, found, reduct, swept, replaces, invents,
        replaces.unsound identities results folded invents⟩
    obtain ⟨own, evaluates, -⟩ :=
      sweeps_value results identities .source calculation honest done rfl
    rw [raises] at evaluates
    cases evaluates

/-- Zero times an undefined quotient has no value, but is optimized to zero. -/
theorem undefined_product_optimized :
    ∃ (tree : Expr Float) (fault : EvaluationFault) (value : Float),
      parse "0*(1/0)" = .ok tree ∧ tree.Calculation ∧
      tree.evaluate 0 "x" Bindings.none = .error (.evaluation fault) ∧
      tree.optimize = .ok (.num value) := by
  have answers : ((do
      let tree : Expr Float ← parse "0*(1/0)"
      let optimized ← tree.optimize
      let undefined := (tree.evaluate 0 "x" Bindings.none).toOption.isNone
      return (decide tree.Calculation, undefined, optimized.number?.isSome)) :
        Except Fault (Bool × Bool × Bool)).toOption = some (true, true, true) := by
    decide +kernel
  simp only [to_option_eq_some, bind_eq_ok, pure_eq_ok, Prod.mk.injEq] at answers
  obtain ⟨tree, parsed, optimized, done, calculation, undefined, number⟩ := answers
  obtain ⟨value, number⟩ := Option.isSome_iff_exists.1 number
  rw [Expr.number_some number] at done
  have calculation := of_decide_eq_true calculation
  cases outcome : tree.evaluate 0 "x" Bindings.none with
  | ok value =>
      rw [outcome] at undefined
      cases undefined
  | error fault =>
      obtain ⟨reason, rfl⟩ := calculation.fault outcome
      exact ⟨tree, reason, value, parsed, calculation, outcome, done⟩

section

open Exact

/-- Over the reals, too, `0*(1/0)` becomes zero by an identity for which it has no value. -/
theorem undefined_to_number_of_product :
    ∃ current found reduct,
      Swept (0 : ℝ) (.binary .mul (.num 0) (.binary .div (.num 1) (.num 0))) current ∧
        Replaces 0 current.collapse found reduct ∧ Invents Bindings.none found reduct ∧
        Unsound 0 Bindings.none found reduct := by
  have nothing : divide 1 0 = none := if_pos rfl
  have raises : (Expr.binary .mul (.num (0 : ℝ)) (.binary .div (.num 1) (.num 0))).evaluateIn
      Bindings.none = .error (.evaluation (.undefinedOperation (text (1 : ℝ)) "/" (text (0 : ℝ)))) := by
    simp [Expr.evaluateIn, BinaryOp.fold, nothing]
    rfl
  have swept : sweep (0 : ℝ) (.binary .mul (.num 0) (.binary .div (.num 1) (.num 0))) =
      .ok ⟨.num 0, true⟩ := by
    simp [sweep, foldConstants, foldNode, requireChild, Expr.isMissing, BinaryOp.fold, nothing,
      simplify, reduceBinary, reduceProduct, reduceQuotient, isValue, settle, Expr.same,
      wholeNumber]
  obtain ⟨sweeps, done⟩ : ∃ sweeps, run (0 : ℝ) _ = .ok ⟨.num 0, sweeps⟩ := run_of_sweep swept
  have calculation : (Expr.binary .mul (.num (0 : ℝ)) (.binary .div (.num 1)
      (.num 0))).Calculation := ⟨rfl, rfl, rfl, rfl, rfl⟩
  exact (undefined_to_number identities results calculation raises).2 0 sweeps done

end

end Simplify

end Fluxion
