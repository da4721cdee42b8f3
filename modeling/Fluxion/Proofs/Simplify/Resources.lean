import Fluxion.Proofs.Decimal.Magnitude
import Fluxion.Proofs.Simplify.Settling

/-!
What optimization takes and what it leaves behind. No rewrite makes a tree larger or
deeper. A node over two leaves comes to rest with one sweep, because what is out of
range stays so when it is doubled, and a number that counts as zero leads no difference
out of range; that saves one sweep everywhere. Main statement: a tree of finite numbers
is optimized within as many sweeps as it is deep.
-/

namespace Fluxion

open Outcome Fluxion.Expr

variable {α : Type}

theorem Expr.Built.leaf_cases {tree : Expr α} (built : tree.Built) (leaf : tree.height = 1) :
    (∃ value, tree = .num value) ∨ ∃ name, tree = .var name := by
  cases tree with
  | missing => exact absurd built built_missing
  | num value => exact .inl ⟨value, rfl⟩
  | var name => exact .inr ⟨name, rfl⟩
  | binary op lhs rhs =>
      have positive := height_positive lhs
      simp only [height] at leaf
      omega
  | signed op operand | marked op operand | call name operand =>
      have positive := height_positive operand
      simp only [height] at leaf
      omega

variable [Scalar α]

def Expr.AllFinite : Expr α → Prop
  | .missing | .var _ => True
  | .num value => Scalar.isFinite value = true
  | .binary _ lhs rhs => lhs.AllFinite ∧ rhs.AllFinite
  | .signed _ operand | .marked _ operand => operand.AllFinite
  | .call _ arg => arg.AllFinite

namespace Simplify

variable {epsilon : α}

/-- A result does not depend on the limit, unless the limit is too low for it. -/
theorem sweeps_of_limit {enough before : Nat} {tree : Expr α} {result : Optimized α}
    (done : sweepsFrom epsilon enough before tree = .ok result) (left : Nat) :
    before < result.sweeps ∧ sweepsFrom epsilon left before tree =
      if result.sweeps ≤ before + left then .ok result
      else .error (.simplification (.unsettled sweepLimit)) := by
  induction enough generalizing left before tree with
  | zero => simp [sweepsFrom] at done
  | succ enough induction =>
      simp only [sweepsFrom, bind_eq_ok] at done
      obtain ⟨pass, swept, done⟩ := done
      cases changed : pass.changed with
      | true =>
          rw [if_pos changed] at done
          have later := fun left => induction done left
          have more : before < result.sweeps := Nat.lt_of_succ_lt (later 0).1
          refine ⟨more, ?_⟩
          cases left with
          | zero => exact (if_neg (Nat.not_le.2 more)).symm
          | succ left =>
              have rest : sweepsFrom epsilon (left + 1) before tree =
                  sweepsFrom epsilon left (before + 1) pass.tree := by
                simp [sweepsFrom, swept, changed]
              rw [rest, (later left).2, Nat.add_right_comm, Nat.add_assoc]
      | false =>
          rw [changed] at done
          cases pure_eq_ok.1 done
          refine ⟨Nat.lt_succ_self before, ?_⟩
          cases left with
          | zero => exact (if_neg (Nat.not_le.2 (Nat.lt_succ_self before))).symm
          | succ left =>
              rw [if_pos (Nat.add_le_add_left (Nat.succ_le_succ (Nat.zero_le left)) before)]
              simp [sweepsFrom, swept, changed]

section

variable {op : BinaryOp} {lhs rhs : Expr α}

theorem still_twice_var (range : WithinRange epsilon) (name : String) :
    Settles epsilon 0 (.binary .mul (wholeNumber 2) (.var name)) := by
  show sweep epsilon (.binary .mul (wholeNumber 2) (.var name)) = .ok ⟨_, false⟩
  simp [sweep, foldConstants, requireChild, isMissing, foldNode, wholeNumber, simplify,
    reduceBinary, reduceProduct, isValue, range.two, settle]

theorem still_minus_var (name : String) :
    Settles epsilon 0 (.signed .minus (.var name) : Expr α) := rfl

/-- Twice a number stays as it is where that number added to itself is out of range. -/
theorem still_twice_num (range : WithinRange epsilon) {a b : α}
    (finite : Scalar.isFinite a = true) (same : Scalar.same a b = true)
    (outside : Scalar.add a b = none) :
    Settles epsilon 0 (.binary .mul (wholeNumber 2) (.num a)) := by
  obtain ⟨product, notZero, notOne⟩ := range.twice finite same outside
  show sweep epsilon (.binary .mul (wholeNumber 2) (.num a)) = .ok ⟨_, false⟩
  simp [sweep, foldConstants, requireChild, isMissing, foldNode, wholeNumber, simplify,
    reduceBinary, reduceProduct, isValue, range.two, settle, BinaryOp.fold, product, notZero,
    notOne]

theorem settles_numbers (range : WithinRange epsilon) {a b : α}
    (built : (Expr.binary op (.num a) (.num b)).Built) (finite : Scalar.isFinite a = true)
    (finite' : Scalar.isFinite b = true) :
    Settles epsilon 1 (.binary op (.num a) (.num b)) := by
  rcases sweep_numbers epsilon ((built_binary _ _ _).1 built).1 a b with
    ⟨value, swept⟩ | ⟨outside, swept⟩
  · exact ⟨_, swept, settles_num _ _⟩
  cases reduces : reduceBinary epsilon op (.num a) (.num b) with
  | none => exact settles_of_still built (settles_num _ _) (settles_num _ _) reduces
  | some reduct =>
      rw [reduces] at swept
      refine ⟨_, swept, ?_⟩
      show Settles epsilon 0 reduct
      cases reduce_binary_rule reduces with
      | plusSame same => exact still_twice_num range finite same (pure_eq_ok.1 outside)
      | zeroMinus zero => exact absurd (pure_eq_ok.1 outside) (range.difference finite finite' zero)
      | _ => exact settles_num _ _

theorem settles_leaves (range : WithinRange epsilon) (built : (Expr.binary op lhs rhs).Built)
    (left : lhs.height = 1) (right : rhs.height = 1) (finite : lhs.AllFinite)
    (finite' : rhs.AllFinite) : Settles epsilon 1 (.binary op lhs rhs) := by
  obtain ⟨-, builtLeft, builtRight⟩ := (built_binary _ _ _).1 built
  have stillLeft : Settles epsilon 0 lhs := by
    rcases builtLeft.leaf_cases left with ⟨a, rfl⟩ | ⟨name, rfl⟩ <;> rfl
  have stillRight : Settles epsilon 0 rhs := by
    rcases builtRight.leaf_cases right with ⟨b, rfl⟩ | ⟨name, rfl⟩ <;> rfl
  cases reduces : reduceBinary epsilon op lhs rhs with
  | none => exact settles_of_still built stillLeft stillRight reduces
  | some reduct =>
      rcases sweep_binary built stillLeft stillRight with ⟨value, swept⟩ | swept
      · exact ⟨_, swept, settles_num _ _⟩
      rw [reduces] at swept
      -- what the rules leave of two leaves is at rest, but for two numbers
      cases reduce_binary_rule reduces with
      | zeroPlus | oneTimes => exact ⟨_, swept, stillRight⟩
      | plusZero | minusZero | timesOne | overOne | powerOne => exact ⟨_, swept, stillLeft⟩
      | minusSame | zeroTimes | timesZero | zeroOver | overSame | zeroPower | onePower |
        powerZero => exact ⟨_, swept, settles_num _ _⟩
      | plusSame same =>
          rcases builtLeft.leaf_cases left with ⟨a, rfl⟩ | ⟨name, rfl⟩
          · rcases builtRight.leaf_cases right with ⟨b, rfl⟩ | ⟨name, rfl⟩
            · exact settles_numbers range built finite finite'
            · cases same
          · exact ⟨_, swept, still_twice_var range name⟩
      | zeroMinus zero =>
          rcases builtRight.leaf_cases right with ⟨b, rfl⟩ | ⟨name, rfl⟩
          · rcases builtLeft.leaf_cases left with ⟨a, rfl⟩ | ⟨name, rfl⟩
            · exact settles_numbers range built finite finite'
            · cases zero
          · exact ⟨_, swept, still_minus_var name⟩

end

/-- A tree is at rest after one sweep fewer than it is deep. -/
theorem settles_below_height (range : WithinRange epsilon) {tree : Expr α} (built : tree.Built)
    (finite : tree.AllFinite) : Settles epsilon (tree.height - 1) tree := by
  induction tree with
  | missing => exact absurd built built_missing
  | num value => exact settles_num _ _
  | var name => exact settles_var _ _
  | binary op lhs rhs left right =>
      obtain ⟨-, builtLeft, builtRight⟩ := (built_binary _ _ _).1 built
      have positive := height_positive lhs
      have positive' := height_positive rhs
      show Settles epsilon (max lhs.height rhs.height) (.binary op lhs rhs)
      have settlesLeft := (left builtLeft finite.1).mono
        (show lhs.height - 1 ≤ max lhs.height rhs.height - 1 by omega)
      have settlesRight := (right builtRight finite.2).mono
        (show rhs.height - 1 ≤ max lhs.height rhs.height - 1 by omega)
      generalize deepest : max lhs.height rhs.height = levels at settlesLeft settlesRight ⊢
      obtain leaves | ⟨count, rfl⟩ : levels = 1 ∨ ∃ count, levels = count + 2 := by
        cases levels with
        | zero => omega
        | succ levels =>
            cases levels with
            | zero => exact .inl rfl
            | succ count => exact .inr ⟨count, rfl⟩
      · subst leaves
        exact settles_leaves range built (by omega) (by omega) finite.1 finite.2
      · exact settles_binary built settlesLeft settlesRight
  | signed op operand inner =>
      have positive := height_positive operand
      have inside := inner ((built_signed _ _).1 built).2 finite
      have settles := (settles_sign _).1 op operand built inside
      rwa [Nat.sub_add_cancel positive] at settles
  | marked op operand inner =>
      have inside := inner ((built_marked _ _).1 built).2 finite
      exact (settles_marked built inside).mono (Nat.sub_le _ _)
  | call name arg inner =>
      have positive := height_positive arg
      have settles := settles_call built (inner ((built_call _ _).1 built).2 finite)
      rwa [Nat.sub_add_cancel positive] at settles

/-- A built tree of finite doubles is optimized within as many sweeps as it is deep, to a
tree that is neither larger nor deeper. -/
theorem optimized_within_depth {tree : Expr Float} (built : tree.Built) (finite : tree.AllFinite) :
    ∃ result : Optimized Float, result.sweeps ≤ tree.depth ∧ result.tree.size ≤ tree.size ∧
      result.tree.depth ≤ tree.depth ∧
      (∀ left, sweepsFrom Scalar.tolerance left 0 tree =
        if result.sweeps ≤ left then .ok result
        else .error (.simplification (.unsettled sweepLimit))) ∧
      (tree.depth ≤ sweepLimit → run Scalar.tolerance tree = .ok result) := by
  simp only [depth_eq_height]
  have positive := height_positive tree
  have settles := settles_below_height Decimal.within_range built finite
  obtain ⟨result, done, bound⟩ := sweeps_of_settles 0 settles (Nat.sub_one_lt_of_lt positive)
  have within : result.sweeps ≤ tree.height := by omega
  have rewrites := sweeps_rewrite done
  have limited (left : Nat) : sweepsFrom Scalar.tolerance left 0 tree =
      if result.sweeps ≤ left then .ok result
      else .error (.simplification (.unsettled sweepLimit)) := by
    simpa using (sweeps_of_limit done left).2
  refine ⟨result, within, rewrites.size_le, rewrites.height_le, limited, fun shallow => ?_⟩
  exact (limited sweepLimit).trans (if_pos (Nat.le_trans within shallow))

/-- `0 - (0 - x)`. -/
def twiceFromZero : Expr Float := .binary .sub (.num 0) (.binary .sub (.num 0) (.var "x"))

/-- Three sweeps for three levels: the first makes both differences signs, the second takes the
signs away, the third finds nothing to do. -/
theorem optimized_within_depth_of_differences :
    twiceFromZero.Built ∧ twiceFromZero.AllFinite ∧ twiceFromZero.depth = 3 ∧
      ∃ result : Optimized Float, run Scalar.tolerance twiceFromZero = .ok result ∧
        result.sweeps = 3 ∧ result.tree.size ≤ twiceFromZero.size ∧ result.tree.depth ≤ 3 := by
  have built : twiceFromZero.Built := by simp [twiceFromZero, BinaryOp.isKnown]
  have finite : twiceFromZero.AllFinite := ⟨rfl, rfl, trivial⟩
  have depth : twiceFromZero.depth = 3 := depth_eq_height _
  have counted : (run Scalar.tolerance twiceFromZero).toOption.map (·.sweeps) = some 3 := by
    decide +kernel
  obtain ⟨result, -, size, lower, -, done⟩ := optimized_within_depth built finite
  rw [depth] at lower done
  have optimized := done (by decide)
  rw [optimized] at counted
  exact ⟨built, finite, depth, result, optimized, Option.some.inj counted, size, lower⟩

end Simplify

end Fluxion
