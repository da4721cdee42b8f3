import Fluxion.Proofs.Derivative.Relation
import Mathlib.Algebra.Group.Nat.Defs

/-!
What differentiation and optimization keep. Markers are put over calls of functions
without a rule, and no rewrite replaces such a call; so every chain of markers goes on
ending in one. No variable is brought in, and a derivative is at most four times as
deep as its tree. Main statements: one lemma for each of the three properties and each
of the two relations.
-/

namespace Fluxion

open Outcome Simplify Fluxion.Expr

def Ruleless (name : String) : Prop := NamedFunction.ofName? name = none

theorem four_mul_pow_mul (n height : Nat) : 4 * (4 ^ n * height) = 4 ^ (n + 1) * height := by
  rw [Nat.pow_succ]
  ac_rfl

theorem four_pow_mul_le {low high : Nat} (fourfold : low ≤ 4 * high) (n : Nat) :
    4 ^ n * low ≤ 4 ^ (n + 1) * high :=
  calc 4 ^ n * low ≤ 4 ^ n * (4 * high) := Nat.mul_le_mul_left _ fourfold
    _ = 4 * (4 ^ n * high) := by ac_rfl
    _ = 4 ^ (n + 1) * high := four_mul_pow_mul n high

variable {α : Type} [Scalar α] {epsilon : α}

namespace Simplify

theorem CallRule.ruled {name : String} {arg tree : Expr α} (rule : CallRule epsilon name arg tree) :
    ¬ Ruleless name := by
  unfold Ruleless
  cases rule <;> decide

/-- Below the markers the call stays, with its argument rewritten. -/
theorem Rewrites.under_markers {tree tree' arg : Expr α} {name : String}
    (rewrites : Rewrites epsilon tree tree') (ruleless : Ruleless name)
    (under : tree.underMarkers = .call name arg) :
    ∃ arg', tree'.underMarkers = .call name arg' := by
  induction rewrites generalizing arg with
  | refl tree => exact ⟨arg, under⟩
  | trans before after first second =>
      obtain ⟨arg', under'⟩ := first under
      exact second under'
  | marked op inner induction =>
      cases op with
      | prime => exact induction under
      | other symbol => cases under
  | @call name' arg arg' inner =>
      cases under
      exact ⟨arg', rfl⟩
  | callRule rule =>
      cases under
      exact absurd ruleless rule.ruled
  | binary | signed | folded | binaryRule | signRule => cases under

theorem Rewrites.marks {tree tree' : Expr α} (rewrites : Rewrites epsilon tree tree')
    (marks : tree.Marks Ruleless) : tree'.Marks Ruleless := by
  induction rewrites with
  | refl tree => exact marks
  | trans before after first second => exact second (first marks)
  | binary op left right first second => exact ⟨first marks.1, second marks.2⟩
  | signed op inner induction | call name inner induction => exact induction marks
  | marked op inner induction =>
      obtain ⟨⟨name, arg, under, ruleless⟩, marksInner⟩ := marks
      obtain ⟨arg', under'⟩ := inner.under_markers ruleless under
      exact ⟨⟨name, arg', under', ruleless⟩, induction marksInner⟩
  | folded folds => trivial
  | binaryRule rule =>
      cases rule with
      | zeroPlus | zeroMinus | oneTimes => exact marks.2
      | plusZero | minusZero | timesOne | overOne | powerOne => exact marks.1
      | plusSame => exact ⟨trivial, marks.1⟩
      | minusSame | zeroTimes | timesZero | zeroOver | overSame | zeroPower | onePower |
        powerZero => trivial
  | signRule rule =>
      cases rule with
      | number => trivial
      | plus | minusMinus | minusOther => exact marks
  | callRule rule => cases rule <;> trivial

end Simplify

namespace Expr

variable {v : String} {tree derivative : Expr α}

omit [Scalar α] in
theorem under_markers_height (tree : Expr α) : tree.underMarkers.height ≤ tree.height := by
  induction tree with
  | marked op operand inner =>
      cases op with
      | prime => exact Nat.le_succ_of_le inner
      | other symbol => exact Nat.le_refl _
  | _ => exact Nat.le_refl _

omit [Scalar α] in
theorem Marks.under_markers {allowed : String → Prop} {tree : Expr α} (marks : tree.Marks allowed) :
    tree.underMarkers.Marks allowed := by
  induction tree with
  | marked op operand inner =>
      cases op with
      | prime => exact inner marks.2
      | other symbol => exact marks
  | _ => exact marks

omit [Scalar α] in
theorem constant_under_markers {w : String} {tree : Expr α} (constant : tree.isConstant w = true) :
    tree.underMarkers.isConstant w = true := by
  induction tree with
  | marked op operand inner =>
      cases op with
      | prime => exact inner constant
      | other symbol => exact constant
  | _ => exact constant

theorem slope_marks {allowed : String → Prop} {f : NamedFunction} {arg : Expr α}
    (marks : arg.Marks allowed) : (f.slope arg).Marks allowed := by
  cases f <;> simp [NamedFunction.slope, Marks, marks]

theorem slope_constant {w : String} {f : NamedFunction} {arg : Expr α}
    (constant : arg.isConstant w = true) : (f.slope arg).isConstant w = true := by
  cases f <;> simp [NamedFunction.slope, isConstant, constant]

theorem slope_height (f : NamedFunction) (arg : Expr α) :
    (f.slope arg).height ≤ arg.height + 3 := by
  cases f <;> simp only [NamedFunction.slope, height] <;> omega

theorem DerivesTo.marks (derives : tree.DerivesTo v derivative) (marks : tree.Marks Ruleless) :
    derivative.Marks Ruleless := by
  induction derives with
  | number | itself | other | powerOfZero => trivial
  | known named argument inner => exact ⟨slope_marks marks, inner marks⟩
  | unknown nameless argument inner => exact ⟨⟨⟨_, _, rfl, nameless⟩, marks⟩, inner marks⟩
  | marker under argument inner =>
      obtain ⟨ends, marksOperand⟩ := marks
      have marksArg := marksOperand.under_markers
      rw [under] at marksArg
      exact ⟨⟨ends, ends, marksOperand⟩, inner marksArg⟩
  | sign op argument inner => exact inner marks
  | sum first second left right | difference first second left right =>
      exact ⟨left marks.1, right marks.2⟩
  | product first second left right =>
      exact ⟨⟨marks.1, right marks.2⟩, left marks.1, marks.2⟩
  | quotient first second left right =>
      exact ⟨⟨⟨left marks.1, marks.2⟩, marks.1, right marks.2⟩, marks.2, trivial⟩
  | power constant optimized nonzero first left =>
      have exponent := (optimize_rewrites optimized).marks marks.2
      exact ⟨⟨exponent, marks.1, exponent, trivial⟩, left marks.1⟩
  | exponential varying constant second right => exact ⟨⟨marks, marks.1⟩, right marks.2⟩
  | generalPower varying varyingBase first second left right =>
      exact ⟨marks, ⟨⟨left marks.1, marks.2⟩, marks.1⟩, right marks.2, marks.1⟩

theorem DerivesTo.constant {w : String} (derives : tree.DerivesTo v derivative)
    (constant : tree.isConstant w = true) : derivative.isConstant w = true := by
  induction derives with
  | number | itself | other | powerOfZero => rfl
  | known named argument inner =>
      simp only [isConstant, Bool.and_eq_true]
      exact ⟨slope_constant constant, inner constant⟩
  | unknown nameless argument inner =>
      simp only [isConstant, Bool.and_eq_true]
      exact ⟨constant, inner constant⟩
  | marker under argument inner =>
      have constantArg := constant_under_markers constant
      rw [underMarkers, under] at constantArg
      simp only [isConstant, Bool.and_eq_true]
      exact ⟨constant, inner constantArg⟩
  | sign op argument inner => exact inner constant
  | power constantExponent optimized nonzero first left =>
      simp only [isConstant, Bool.and_eq_true] at constant ⊢
      have exponent := (optimize_rewrites optimized).constant constant.2
      simp [constant, exponent, left constant.1]
  | sum first second left right | difference first second left right
  | product first second left right | quotient first second left right
  | generalPower varying varyingBase first second left right =>
      simp only [isConstant, Bool.and_eq_true] at constant ⊢
      simp [constant, left constant.1, right constant.2]
  | exponential varying constantBase second right =>
      simp only [isConstant, Bool.and_eq_true] at constant ⊢
      simp [constant, right constant.2]

theorem DerivesTo.height_le (derives : tree.DerivesTo v derivative) :
    derivative.height ≤ 4 * tree.height := by
  induction derives with
  | number | itself | other => simp [height]
  | powerOfZero =>
      simp only [height]
      omega
  | @known name f arg inner named argument low =>
      have slope := slope_height f arg
      have positive := height_positive arg
      simp only [height]
      omega
  | @unknown name arg inner nameless argument low =>
      have positive := height_positive arg
      simp only [height]
      omega
  | @marker name operand arg inner under argument low =>
      have deeper := under_markers_height operand
      rw [under] at deeper
      simp only [height] at deeper ⊢
      omega
  | @power lhs rhs n left constant optimized nonzero first low =>
      have exponent := (optimize_rewrites optimized).height_le
      have positive := height_positive lhs
      simp only [height]
      omega
  | sum | difference | product | quotient | exponential | generalPower | sign =>
      simp only [height]
      omega

/-- The optimized derivative follows the rules, or the sweeps of an optimization run out. -/
theorem derivative_completes {allowed : String → Prop} (built : tree.Built)
    (marks : tree.Marks allowed) :
    Completes (tree.derivative v)
      (fun next => ∃ raw, tree.DerivesTo v raw ∧ raw.optimize = .ok next) (4 * tree.height) := by
  have differentiated := raw_derivative_completes (v := v) built marks
  refine (differentiated.mono (by omega)).bind fun raw derives => ?_
  have optimizes := (optimize_completes (derives.built built)).mono derives.height_le
  exact optimizes.imp fun next optimized => ⟨raw, derives, optimized⟩

end Expr

end Fluxion
