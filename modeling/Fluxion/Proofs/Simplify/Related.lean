import Fluxion.Proofs.Expr.Related
import Fluxion.Proofs.Simplify.Rewriting
import Mathlib.Tactic.SplitIfs

/-!
Two optimizations side by side. Rules compare numbers with whole ones and subtrees with
each other, and one of them, the logarithm of Euler's number, looks at a name. On related
trees all of these have the same outcome, so the two optimizations take the same steps.
Main statement: related trees are optimized to related trees, or both fail alike; at most
one name may be told apart, if it stands under no logarithm.
-/

namespace Fluxion

open Outcome

variable {α : Type}

namespace Expr

def ConstantUnderLn (v : String) : Expr α → Prop
  | missing | num _ | var _ => True
  | binary _ lhs rhs => lhs.ConstantUnderLn v ∧ rhs.ConstantUnderLn v
  | signed _ operand | marked _ operand => operand.ConstantUnderLn v
  | call name arg => (name = "ln" → arg.isConstant v = true) ∧ arg.ConstantUnderLn v

theorem constant_under_ln {v : String} {tree : Expr α} (constant : tree.isConstant v = true) :
    tree.ConstantUnderLn v := by
  induction tree with
  | missing | num value | var name => trivial
  | binary op lhs rhs left right =>
      simp only [isConstant, Bool.and_eq_true] at constant
      exact ⟨left constant.1, right constant.2⟩
  | signed op operand inner | marked op operand inner => exact inner constant
  | call name arg inner => exact ⟨fun _ => constant, inner constant⟩

end Expr

open Fluxion.Expr

variable [Scalar α] {epsilon : α} {v : String}

namespace Simplify

theorem Rewrites.constant_under_ln {tree tree' : Expr α} (rewrites : Rewrites epsilon tree tree')
    (free : tree.ConstantUnderLn v) : tree'.ConstantUnderLn v := by
  induction rewrites with
  | refl tree => exact free
  | trans before after first second => exact second (first free)
  | binary op left right first second => exact ⟨first free.1, second free.2⟩
  | signed op inner induction | marked op inner induction => exact induction free
  | call name inner induction =>
      exact ⟨fun logarithm => inner.constant (free.1 logarithm), induction free.2⟩
  | folded folds => trivial
  | binaryRule rule =>
      cases rule with
      | zeroPlus | zeroMinus | oneTimes => exact free.2
      | plusZero | minusZero | timesOne | overOne | powerOne => exact free.1
      | plusSame => exact ⟨trivial, free.1⟩
      | minusSame | zeroTimes | timesZero | zeroOver | overSame | zeroPower | onePower |
        powerZero => trivial
  | signRule rule =>
      cases rule with
      | number => trivial
      | plus | minusMinus | minusOther => exact free
  | callRule rule => cases rule <;> trivial

variable {numbers : α → α → Prop} {names : String → String → Prop}

def PassRelated (numbers : α → α → Prop) (names : String → String → Prop) (pass pass' : Pass α) :
    Prop :=
  Related numbers names pass.tree pass'.tree ∧ pass.changed = pass'.changed

omit [Scalar α] in
theorem require_child_agree {slot kind : String} {child child' : Expr α}
    (related : Related numbers names child child') :
    Agree (fun _ _ => True) (requireChild slot kind child) (requireChild slot kind child') := by
  unfold requireChild
  rw [related.is_missing]
  split
  · exact .error _
  · exact .ok trivial

omit [Scalar α] in
theorem settle_related {reduced reduced' : Option (Expr α)} {node node' : Expr α}
    {changed changed' : Bool} (reduces : Option.Rel (Related numbers names) reduced reduced')
    (related : Related numbers names node node') (alike : changed = changed') :
    PassRelated numbers names (settle reduced node changed) (settle reduced' node' changed') := by
  cases reduces with
  | none => exact ⟨related, alike⟩
  | some reducts => exact ⟨reducts, rfl⟩

section

variable (alikeNumbers : AlikeNumbers epsilon numbers)

include alikeNumbers

theorem whole_number_related (n : Nat) :
    Related numbers names (wholeNumber n) (wholeNumber n : Expr α) :=
  .num (alikeNumbers.whole n)

theorem is_value_related {tree tree' : Expr α} (related : Related numbers names tree tree')
    (n : Nat) : isValue epsilon tree n = isValue epsilon tree' n := by
  cases related with
  | num close => exact alikeNumbers.near n close
  | _ => rfl

theorem reduce_signed_related (op : SignOp) {operand operand' : Expr α}
    (related : Related numbers names operand operand') :
    Option.Rel (Related numbers names) (reduceSigned op operand) (reduceSigned op operand') := by
  cases op with
  | plus => exact .some related
  | minus | other symbol =>
      cases related with
      | num close => exact .some (.num (alikeNumbers.neg close))
      | signed op' inner =>
          cases op' with
          | minus => exact .some inner
          | plus | other symbol => exact .some (.signed .minus inner)
      | missing | var close | binary op' left right | marked op' inner | call name inner =>
          exact .none

theorem identity_related {a a' : α} (close : numbers a a') (name : String) :
    identityAt? epsilon name a = identityAt? epsilon name a' := by
  simp only [identityAt?, alikeNumbers.near _ close]

theorem fold_node_agree (op : BinaryOp) {lhs lhs' rhs rhs' : Expr α} {changed changed' : Bool}
    (left : Related numbers names lhs lhs') (right : Related numbers names rhs rhs')
    (alike : changed = changed') :
    Agree (PassRelated numbers names) (foldNode op lhs rhs changed)
      (foldNode op lhs' rhs' changed') := by
  have node : Agree (PassRelated numbers names)
      (pure ⟨.binary op lhs rhs, changed⟩ : Except Fault (Pass α))
      (pure ⟨.binary op lhs' rhs', changed'⟩) :=
    agree_pure ⟨.binary op left right, alike⟩
  cases left with
  | num close =>
      cases right with
      | num close' =>
          refine (alikeNumbers.fold op close close').bind fun value value' _ folds => ?_
          cases folds with
          | none => exact node
          | some results => exact agree_pure ⟨.num results, rfl⟩
      | _ => exact node
  | _ => exact node

theorem fold_constants_agree {tree tree' : Expr α} (related : Related numbers names tree tree') :
    Agree (PassRelated numbers names) (foldConstants tree) (foldConstants tree') := by
  induction related with
  | missing => exact agree_pure ⟨.missing, rfl⟩
  | num close => exact agree_pure ⟨.num close, rfl⟩
  | var close => exact agree_pure ⟨.var close, rfl⟩
  | binary op left right first second =>
      refine (require_child_agree left).bind fun _ _ _ _ => ?_
      refine first.bind fun passLeft passLeft' _ relatedLeft => ?_
      refine (require_child_agree right).bind fun _ _ _ _ => ?_
      refine second.bind fun passRight passRight' _ relatedRight => ?_
      apply fold_node_agree alikeNumbers op relatedLeft.1 relatedRight.1
      rw [relatedLeft.2, relatedRight.2]
  | signed op inner induction =>
      refine (require_child_agree inner).bind fun _ _ _ _ => ?_
      refine induction.bind fun pass pass' _ relatedInner => ?_
      exact agree_pure ⟨.signed op relatedInner.1, relatedInner.2⟩
  | marked op inner induction =>
      refine (require_child_agree inner).bind fun _ _ _ _ => ?_
      refine induction.bind fun pass pass' _ relatedInner => ?_
      exact agree_pure ⟨.marked op relatedInner.1, relatedInner.2⟩
  | call name inner induction =>
      refine (require_child_agree inner).bind fun _ _ _ _ => ?_
      refine induction.bind fun pass pass' _ relatedInner => ?_
      exact agree_pure ⟨.call name relatedInner.1, relatedInner.2⟩

variable (alikeNames : AlikeNames v names)

include alikeNames

theorem reduce_binary_related (op : BinaryOp) {lhs lhs' rhs rhs' : Expr α}
    (left : Related numbers names lhs lhs') (right : Related numbers names rhs rhs') :
    Option.Rel (Related numbers names) (reduceBinary epsilon op lhs rhs)
      (reduceBinary epsilon op lhs' rhs') := by
  have valueLeft := is_value_related alikeNumbers left
  have valueRight := is_value_related alikeNumbers right
  have same := left.same alikeNumbers alikeNames right
  have whole (n : Nat) :
      Option.Rel (Related numbers names) (some (wholeNumber n)) (some (wholeNumber n)) :=
    .some (whole_number_related alikeNumbers n)
  cases op with
  | add =>
      simp only [reduceBinary, reduceSum, valueLeft, valueRight, same]
      split_ifs
      · exact .some right
      · exact .some left
      · exact .some (.binary .mul (whole_number_related alikeNumbers 2) left)
      · exact .none
  | sub =>
      simp only [reduceBinary, reduceDifference, valueLeft, valueRight, same]
      split_ifs
      · exact .some left
      · exact .some (.signed .minus right)
      · exact whole 0
      · exact .none
  | mul =>
      simp only [reduceBinary, reduceProduct, valueLeft, valueRight]
      split_ifs
      · exact .some right
      · exact .some left
      · exact whole 0
      · exact .none
  | div =>
      simp only [reduceBinary, reduceQuotient, valueLeft, valueRight, same]
      split_ifs
      · exact whole 0
      · exact .some left
      · exact whole 1
      · exact .none
  | pow =>
      simp only [reduceBinary, reducePower, valueLeft, valueRight]
      split_ifs
      · exact whole 0
      · exact whole 1
      · exact whole 1
      · exact .some left
      · exact .none
  | other symbol => exact .none

theorem reduce_call_related (name : String) {arg arg' : Expr α}
    (related : Related numbers names arg arg') (free : name = "ln" → arg.isConstant v = true) :
    Option.Rel (Related numbers names) (reduceCall epsilon name arg)
      (reduceCall epsilon name arg') := by
  cases related with
  | num close =>
      simp only [reduceCall, identity_related alikeNumbers close]
      cases identityAt? epsilon name _ with
      | none => exact .none
      | some n => exact .some (whole_number_related alikeNumbers n)
  | @var x x' close =>
      by_cases logarithm : name = "ln"
      · have differs : x ≠ v := by simpa [isConstant] using free logarithm
        simp only [reduceCall, alikeNames.euler close differs]
        split_ifs
        · exact .some (whole_number_related alikeNumbers 1)
        · exact .none
      · simp only [reduceCall, logarithm, false_and, if_false]
        exact .none
  | missing | binary op left right | signed op inner | marked op inner | call name' inner =>
      exact .none

theorem simplify_agree {tree tree' : Expr α} (related : Related numbers names tree tree')
    (free : tree.ConstantUnderLn v) :
    Agree (PassRelated numbers names) (simplify epsilon tree) (simplify epsilon tree') := by
  induction related with
  | missing => exact agree_pure ⟨.missing, rfl⟩
  | num close => exact agree_pure ⟨.num close, rfl⟩
  | var close => exact agree_pure ⟨.var close, rfl⟩
  | binary op left right first second =>
      refine (require_child_agree left).bind fun _ _ _ _ => ?_
      refine (first free.1).bind fun passLeft passLeft' _ relatedLeft => ?_
      refine (require_child_agree right).bind fun _ _ _ _ => ?_
      refine (second free.2).bind fun passRight passRight' _ relatedRight => ?_
      have reduces := reduce_binary_related alikeNumbers alikeNames op relatedLeft.1 relatedRight.1
      apply agree_pure
      apply settle_related reduces (.binary op relatedLeft.1 relatedRight.1)
      rw [relatedLeft.2, relatedRight.2]
  | signed op inner induction =>
      refine (require_child_agree inner).bind fun _ _ _ _ => ?_
      refine (induction free).bind fun pass pass' _ relatedInner => ?_
      have reduces := reduce_signed_related alikeNumbers op relatedInner.1
      exact agree_pure (settle_related reduces (.signed op relatedInner.1) relatedInner.2)
  | marked op inner induction =>
      refine (require_child_agree inner).bind fun _ _ _ _ => ?_
      refine (induction free).bind fun pass pass' _ relatedInner => ?_
      exact agree_pure ⟨.marked op relatedInner.1, relatedInner.2⟩
  | call name inner induction =>
      refine (require_child_agree inner).bind fun _ _ _ _ => ?_
      refine (induction free.2).bind fun pass pass' simplified relatedInner => ?_
      have stillFree (logarithm : name = "ln") : pass.tree.isConstant v = true :=
        (simplify_rewrites simplified).constant (free.1 logarithm)
      have reduces := reduce_call_related alikeNumbers alikeNames name relatedInner.1 stillFree
      exact agree_pure (settle_related reduces (.call name relatedInner.1) relatedInner.2)

theorem sweep_agree {tree tree' : Expr α} (related : Related numbers names tree tree')
    (free : tree.ConstantUnderLn v) :
    Agree (PassRelated numbers names) (sweep epsilon tree) (sweep epsilon tree') := by
  refine (fold_constants_agree alikeNumbers related).bind fun folded folded' done relatedFold => ?_
  have stillFree := (fold_rewrites epsilon done).constant_under_ln free
  have simplifies := simplify_agree alikeNumbers alikeNames relatedFold.1 stillFree
  refine simplifies.bind fun simplified simplified' _ relatedSimplified => ?_
  apply agree_pure
  refine ⟨relatedSimplified.1, ?_⟩
  rw [relatedFold.2, relatedSimplified.2]

/-- The two runs take the same number of sweeps. -/
theorem sweeps_agree (left before : Nat) {tree tree' : Expr α}
    (related : Related numbers names tree tree') (free : tree.ConstantUnderLn v) :
    Agree (fun result result' => Related numbers names result.tree result'.tree ∧
        result.sweeps = result'.sweeps)
      (sweepsFrom epsilon left before tree) (sweepsFrom epsilon left before tree') := by
  induction left generalizing before tree tree' with
  | zero => exact .error _
  | succ left induction =>
      refine (sweep_agree alikeNumbers alikeNames related free).bind fun pass pass' swept after => ?_
      rw [← after.2]
      split
      · exact induction (before + 1) after.1 ((sweep_rewrites swept).constant_under_ln free)
      · exact agree_pure ⟨after.1, rfl⟩

end

end Simplify

namespace Expr

variable {numbers : α → α → Prop} {names : String → String → Prop}

/-- Related trees are optimized to related trees, or both fail alike. -/
theorem optimize_agree (alikeNumbers : AlikeNumbers Scalar.tolerance numbers)
    (alikeNames : AlikeNames v names) {tree tree' : Expr α}
    (related : Related numbers names tree tree') (free : tree.ConstantUnderLn v) :
    Agree (Related numbers names) tree.optimize tree'.optimize := by
  refine (Simplify.sweeps_agree alikeNumbers alikeNames _ 0 related free).bind ?_
  intro result result' _ after
  exact agree_pure after.1

end Expr

end Fluxion
