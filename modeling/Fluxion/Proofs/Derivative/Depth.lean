import Fluxion.Proofs.Derivative.Series

/-!
How deep derivatives are. A rule stacks at most four nodes over the derivatives of the
parts, as many as the rule for a power in which both parts vary, and nothing that is
copied or optimized lies deeper than that. Main statement: one differentiation makes a
tree at most four times as deep, with its optimization or without, so the derivatives of
a text are bounded by powers of four.
-/

namespace Fluxion

open Outcome

variable {α : Type} [Scalar α]

namespace Differentiation

theorem lift_ok_iff {β : Type} {outcome : Except Fault β} {value : β} {steps after : Array Step} :
    lift outcome steps = .ok value after ↔ outcome = .ok value ∧ steps = after := by
  cases outcome with
  | ok result =>
      show EStateM.Result.ok result steps = _ ↔ _
      simp
  | error fault =>
      show EStateM.Result.error fault steps = _ ↔ _
      simp

theorem record_ok {rule : Rule} {tree derivative result : Expr α} {steps after : Array Step}
    (done : record rule tree derivative steps = .ok result after) : derivative = result := by
  simp only [record, bind_ok_iff] at done
  obtain ⟨_, _, _, _, _, _, _, _, _, returned⟩ := done
  exact (pure_ok_iff.1 returned).1

end Differentiation

namespace Expr

open Differentiation

variable {v : String} {tree raw : Expr α} {steps after : Array Step}

theorem power_derives {lhs rhs : Expr α}
    (left : ∀ {raw steps after}, lhs.differentiate v steps = .ok raw after → lhs.DerivesTo v raw)
    (right : ∀ {raw steps after}, rhs.differentiate v steps = .ok raw after → rhs.DerivesTo v raw)
    (done : (binary .pow lhs rhs).differentiate v steps = .ok raw after) :
    (binary .pow lhs rhs).DerivesTo v raw := by
  rw [differentiate] at done
  by_cases constant : rhs.isConstant v = true
  · rw [if_pos constant] at done
    simp only [bind_ok_iff, lift_ok_iff, bind_eq_ok] at done
    obtain ⟨n, _, ⟨⟨exponent, isWhole, optimized⟩, -⟩, done⟩ := done
    rw [← eq_of_whole isWhole] at optimized
    by_cases zero : n.isZero = true
    · rw [if_pos zero] at done
      exact record_ok done ▸ .powerOfZero constant optimized zero
    · rw [if_neg zero] at done
      simp only [bind_ok_iff, lift_ok_iff] at done
      obtain ⟨_, _, -, _, _, first, done⟩ := done
      exact record_ok done ▸ .power constant optimized (by simpa using zero) (left first)
  · rw [if_neg constant] at done
    have varying : rhs.isConstant v = false := by simpa using constant
    simp only [bind_ok_iff, lift_ok_iff] at done
    obtain ⟨_, _, -, _, _, -, done⟩ := done
    by_cases constantBase : lhs.isConstant v = true
    · rw [if_pos constantBase, bind_ok_iff] at done
      obtain ⟨_, _, second, done⟩ := done
      exact record_ok done ▸ .exponential varying constantBase (right second)
    · rw [if_neg constantBase] at done
      simp only [bind_ok_iff] at done
      obtain ⟨_, _, first, _, _, second, done⟩ := done
      exact record_ok done ▸
        .generalPower varying (by simpa using constantBase) (left first) (right second)

/-- What is computed follows the rules, whatever the tree, and so does the derivative of an
argument below markers. -/
theorem derives_of_ok (tree : Expr α) :
    (∀ {raw steps after}, tree.differentiate v steps = .ok raw after → tree.DerivesTo v raw) ∧
      ∀ {name arg inner steps after}, tree.underMarkers = call name arg →
        tree.argumentDerivative v steps = .ok inner after → arg.DerivesTo v inner := by
  induction tree with
  | missing =>
      refine ⟨fun done => ?_, fun under => by cases under⟩
      rw [differentiate] at done
      cases done
  | num value =>
      refine ⟨fun done => ?_, fun under => by cases under⟩
      rw [differentiate] at done
      exact record_ok done ▸ .number value
  | var name =>
      refine ⟨fun done => ?_, fun under => by cases under⟩
      rw [differentiate] at done
      rw [← record_ok done]
      split
      · rename_i same
        subst same
        exact .itself
      · rename_i differs
        exact .other differs
  | binary op lhs rhs left right =>
      refine ⟨fun done => ?_, fun under => by cases under⟩
      cases op with
      | add =>
          rw [differentiate] at done
          simp only [bind_ok_iff] at done
          obtain ⟨_, _, first, _, _, second, done⟩ := done
          exact record_ok done ▸ .sum (left.1 first) (right.1 second)
      | sub =>
          rw [differentiate] at done
          simp only [bind_ok_iff] at done
          obtain ⟨_, _, first, _, _, second, done⟩ := done
          exact record_ok done ▸ .difference (left.1 first) (right.1 second)
      | mul =>
          rw [differentiate] at done
          simp only [bind_ok_iff] at done
          obtain ⟨_, _, -, _, _, second, _, _, first, _, _, -, done⟩ := done
          exact record_ok done ▸ .product (left.1 first) (right.1 second)
      | div =>
          rw [differentiate] at done
          simp only [bind_ok_iff] at done
          obtain ⟨_, _, first, _, _, -, _, _, -, _, _, second, done⟩ := done
          exact record_ok done ▸ .quotient (left.1 first) (right.1 second)
      | pow => exact power_derives left.1 right.1 done
      | other symbol =>
          rw [differentiate] at done
          cases done
  | signed op operand inner =>
      refine ⟨fun done => ?_, fun under => by cases under⟩
      rw [differentiate] at done
      simp only [bind_ok_iff, lift_ok_iff] at done
      obtain ⟨_, _, argument, _, _, ⟨made, -⟩, done⟩ := done
      obtain ⟨-, -, rfl⟩ := make_signed_ok.1 made
      exact record_ok done ▸ .sign op (inner.1 argument)
  | marked op operand inner =>
      cases op with
      | other symbol =>
          refine ⟨fun done => ?_, fun under => by cases under⟩
          rw [differentiate] at done
          cases done
      | prime =>
          refine ⟨fun done => ?_, fun under done => ?_⟩
          · rw [differentiate] at done
            simp only [bind_ok_iff, lift_ok_iff] at done
            obtain ⟨_, _, ⟨ends, -⟩, outer, _, ⟨isWhole, -⟩, _, _, argument, done⟩ := done
            obtain rfl := eq_of_whole isWhole
            unfold requireMarkedCall at ends
            split at ends
            · rename_i under
              exact record_ok done ▸ .marker under (inner.2 under argument)
            · cases ends
          · rw [argumentDerivative] at done
            exact inner.2 under done
  | call name arg inner =>
      refine ⟨fun done => ?_, fun under done => ?_⟩
      · rw [differentiate] at done
        simp only [bind_ok_iff, lift_ok_iff, bind_eq_ok] at done
        obtain ⟨outer, _, ⟨⟨copied, isWhole, outside⟩, -⟩, _, _, argument, done⟩ := done
        rw [← eq_of_whole isWhole] at outside
        unfold outerDerivative at outside
        split at outside
        · rename_i known
          exact record_ok done ▸ pure_eq_ok.1 outside ▸ .known known (inner.1 argument)
        · rename_i nameless
          simp only [bind_eq_ok, pure_eq_ok] at outside
          obtain ⟨called, made, rfl⟩ := outside
          obtain ⟨-, -, rfl⟩ := make_call_ok.1 made
          exact record_ok done ▸ .unknown nameless (inner.1 argument)
      · cases under
        rw [argumentDerivative] at done
        exact inner.1 done

theorem derives_of_raw_derivative (done : tree.rawDerivative v = .ok raw) :
    tree.DerivesTo v raw := by
  unfold rawDerivative EStateM.run at done
  split at done
  · rename_i differentiated
    cases done
    exact (derives_of_ok tree).1 differentiated
  · cases done

theorem raw_derivative_height_le (done : tree.rawDerivative v = .ok raw) :
    raw.height ≤ 4 * tree.height :=
  (derives_of_raw_derivative done).height_le

theorem derivative_height_le {next : Expr α} (done : tree.derivative v = .ok next) :
    next.height ≤ 4 * tree.height := by
  obtain ⟨raw, differentiated, optimized⟩ := bind_eq_ok.1 done
  calc next.height ≤ raw.height := (optimize_rewrites optimized).height_le
    _ ≤ 4 * tree.height := raw_derivative_height_le differentiated

/-- The trees of a series, as long as its sweeps do not run out: each is within its own power
of four. -/
theorem derivatives_height_complete {source current : Expr α} {left : Nat}
    (derivable : Derivable source current) :
    Completes (derivativesFrom v left current)
      (fun trees => trees.length = left + 1 ∧
        ∀ k entry, trees[k]? = some entry → entry.height ≤ 4 ^ k * current.height)
      (4 ^ left * current.height) := by
  induction left generalizing current with
  | zero =>
      refine completes_ok ⟨rfl, fun k entry found => ?_⟩
      cases k with
      | zero =>
          cases found
          omega
      | succ k => cases found
  | succ left induction =>
      have step := derivative_completes (v := v) derivable.built derivable.marks
      have wide : 4 * current.height ≤ 4 ^ (left + 1) * current.height :=
        Nat.mul_le_mul_right _ (Nat.le_self_pow (by omega) 4)
      refine (step.mono wide).bind fun next ⟨raw, derives, optimized⟩ => ?_
      have low : next.height ≤ 4 * current.height :=
        Nat.le_trans (optimize_rewrites optimized).height_le derives.height_le
      have rest := induction ((derivable.derivative derives).optimized optimized)
      refine (rest.mono (four_pow_mul_le low left)).bind fun trees ⟨count, within⟩ => ?_
      refine completes_ok ⟨congrArg Nat.succ count, fun k entry found => ?_⟩
      cases k with
      | zero =>
          cases found
          omega
      | succ k => exact Nat.le_trans (within k entry found) (four_pow_mul_le low k)

end Expr

/-- A derivative is at most four times as deep as its tree, before and after optimization. So
the first derivative of a text exists and is at most four times as deep as a text may be, and
each further one multiplies the bound by four, unless it takes sweeps beyond their limit. -/
theorem depth_of_derivative (tree : Expr Float) (v : String) :
    (∀ raw, tree.rawDerivative v = .ok raw → raw.depth ≤ 4 * tree.depth) ∧
    (∀ next, tree.derivative v = .ok next → next.depth ≤ 4 * tree.depth) ∧
    ∀ text, parse text = .ok tree →
      (∃ next, tree.derivative v = .ok next ∧ next.depth ≤ 4 * depthLimit) ∧
      ∀ order : Nat, (∃ trees, tree.derivatives order v = .ok trees ∧
          trees.length = order + 1 ∧
          ∀ k entry, trees[k]? = some entry → entry.depth ≤ 4 ^ k * depthLimit) ∨
        tree.derivatives order v = .error (.simplification (.unsettled sweepLimit)) ∧
          sweepLimit ≤ 4 ^ order * depthLimit := by
  simp only [Expr.depth_eq_height]
  refine ⟨fun raw => Expr.raw_derivative_height_le, fun next => Expr.derivative_height_le, ?_⟩
  intro text parsed
  obtain ⟨plain, shallow⟩ : tree.Plain ∧ tree.height ≤ depthLimit := by
    rw [← Expr.depth_eq_height]
    rcases parse_answers text with ⟨answer, parsed', holds⟩ | ⟨_, _, _, -, refused⟩
    · cases parsed'.symm.trans parsed
      exact holds
    · rw [refused] at parsed
      cases parsed
  have derivable := plain.derivable
  constructor
  · rcases Expr.derivative_completes (v := v) derivable.built derivable.marks with
      ⟨next, done, -⟩ | ⟨-, deep⟩
    · exact ⟨next, done, Nat.le_trans (Expr.derivative_height_le done)
        (Nat.mul_le_mul_left 4 shallow)⟩
    · have few : 4 * depthLimit < sweepLimit := by decide
      omega
  · intro order
    have series : tree.derivatives order v = Expr.derivativesFrom v order tree := by
      rw [Expr.derivatives, if_neg (by omega), Expr.whole_of_built derivable.built]
      rfl
    have completes : Completes (Expr.derivativesFrom v order tree) _ _ :=
      Expr.derivatives_height_complete derivable
    rw [series]
    rcases completes with
      ⟨trees, done, count, within⟩ | ⟨failed, deep⟩
    · refine .inl ⟨trees, done, count, fun k entry found => ?_⟩
      exact Nat.le_trans (within k entry found) (Nat.mul_le_mul_left _ shallow)
    · exact .inr ⟨failed, Nat.le_trans deep (Nat.mul_le_mul_left _ shallow)⟩

/-- In `x^x` both parts of the power vary, and its derivative exists. -/
theorem depth_of_derivative_of_power :
    ∃ tree raw next : Expr Float, parse "x^x" = .ok tree ∧ tree.rawDerivative "x" = .ok raw ∧
      raw.depth ≤ 4 * 2 ∧ tree.derivative "x" = .ok next ∧ next.depth ≤ 4 * depthLimit := by
  have answers : ((do
      let tree : Expr Float ← parse "x^x"
      let raw ← tree.rawDerivative "x"
      pure (tree.height, raw.height)) : Except Fault (Nat × Nat)).toOption = some (2, 5) := by
    decide +kernel
  simp only [to_option_eq_some, bind_eq_ok, pure_eq_ok, Prod.mk.injEq] at answers
  obtain ⟨tree, parsed, raw, differentiated, low, -⟩ := answers
  obtain ⟨rawBound, -, texts⟩ := depth_of_derivative tree "x"
  obtain ⟨next, derived, bound⟩ := (texts "x^x" parsed).1
  have within := rawBound raw differentiated
  rw [Expr.depth_eq_height tree, low] at within
  exact ⟨tree, raw, next, parsed, differentiated, within, derived, bound⟩

end Fluxion
