import Fluxion.Proofs.Meaning.Exact
import Fluxion.Proofs.Meaning.Soundness
import Mathlib

/-!
Trees as partial real functions. Numbers have the real value that they stand for, the
operators and the named functions are the partial functions of exact arithmetic, any
other name is a function that is given from outside, and a marked call is a derivative
of that function. Everything is read at one point: the values of all variables.
-/

namespace Fluxion

open Exact Simplify

noncomputable def BinaryOp.overReals : BinaryOp → ℝ → ℝ → Option ℝ
  | .add, a, b => some (a + b)
  | .sub, a, b => some (a - b)
  | .mul, a, b => some (a * b)
  | .div, a, b => divide a b
  | .pow, a, b => power a b
  | .other _, _, _ => none

variable {α : Type}

/-- The variables with their values, among which the two constants are found unless
one of them is the variable in question. -/
noncomputable def realNames (others : String → ℝ) (v : String) (x : ℝ) (name : String) : ℝ :=
  if name = v then x
  else if name = Expr.eulerName then Real.exp 1
  else if name = Expr.piName then Real.pi
  else others name

noncomputable def Reading.real (toReal : α → ℝ) (functions : String → ℝ → ℝ)
    (names : String → ℝ) : Reading α ℝ where
  number := toReal
  name n := some (names n)
  negate a := -a
  operate := BinaryOp.overReals
  apply marks name a :=
    match NamedFunction.ofName? name, marks with
    | some f, 0 => Exact.apply f a
    | some _, _ + 1 => none
    | none, marks => some (iteratedDeriv marks (functions name) a)

/-- Numbers that stand for reals exactly: comparison accepts only equal ones, within
the tolerance too, and folding yields the exact result. -/
structure ExactNumbers [Scalar α] (toReal : α → ℝ) : Prop where
  of_nat (n : Nat) : toReal (Scalar.ofNat n) = n
  neg (a : α) : toReal (Scalar.neg a) = -toReal a
  same {a b : α} : Scalar.same a b = true → toReal a = toReal b
  near {a b : α} : Scalar.near Scalar.tolerance a b = true → toReal a = toReal b
  fold {op : BinaryOp} {a b c : α} {d : ℝ} : op.fold a b = .ok (some c) →
    op.overReals (toReal a) (toReal b) = some d → toReal c = d

theorem Exact.numbers : ExactNumbers (id : ℝ → ℝ) where
  of_nat n := rfl
  neg a := rfl
  same same := same_real.1 same
  near near := near_real.1 near
  fold {op a b c d} folds result := by
    cases op with
    | other symbol => cases result
    | _ => exact Option.some.inj ((Except.ok.inj folds).symm.trans result)

namespace Reading

variable {toReal : α → ℝ} {functions : String → ℝ → ℝ} {names names' : String → ℝ}

@[simp] theorem real_number (v : α) : (real toReal functions names).number v = toReal v := rfl

@[simp] theorem real_negate (a : ℝ) : (real toReal functions names).negate a = -a := rfl

@[simp] theorem real_name (name : String) :
    (real toReal functions names).name name = some (names name) := rfl

@[simp] theorem real_operate (op : BinaryOp) (a b : ℝ) :
    (real toReal functions names).operate op a b = op.overReals a b := rfl

theorem real_apply_known {name : String} {f : NamedFunction}
    (named : NamedFunction.ofName? name = some f) (a : ℝ) :
    (real toReal functions names).apply 0 name a = Exact.apply f a := by
  simp [real, named]

theorem real_apply_unknown {name : String} (nameless : NamedFunction.ofName? name = none)
    (marks : Nat) (a : ℝ) :
    (real toReal functions names).apply marks name a =
      some (iteratedDeriv marks (functions name) a) := by
  simp [real, nameless]

theorem value_of_constant {v : String} {tree : Expr α} (constant : tree.isConstant v = true)
    (agree : ∀ name, name ≠ v → names name = names' name) (marks : Nat) :
    (real toReal functions names).value marks tree =
      (real toReal functions names').value marks tree := by
  induction tree generalizing marks with
  | missing => simp
  | num value => cases marks <;> rfl
  | var name =>
      have differs : name ≠ v := by simpa [Expr.isConstant] using constant
      cases marks with
      | zero => exact congrArg some (agree name differs)
      | succ marks => rfl
  | binary op lhs rhs left right =>
      simp only [Expr.isConstant, Bool.and_eq_true] at constant
      cases marks with
      | zero => simp only [value, left constant.1, right constant.2, real_operate]
      | succ marks => rfl
  | signed op operand inner =>
      cases marks with
      | zero => simp only [value, inner constant, real_negate]
      | succ marks => rfl
  | marked op operand inner =>
      cases op with
      | prime =>
          have below := inner constant (marks + 1)
          cases marks <;> exact below
      | other symbol => cases marks <;> rfl
  | call name arg inner =>
      have argument := inner constant 0
      cases marks <;> simp only [value, argument] <;> rfl

section

variable {lhs rhs arg : Expr α} {a b c : ℝ}

theorem value_sum (left : (real toReal functions names).value 0 lhs = some a)
    (right : (real toReal functions names).value 0 rhs = some b) :
    (real toReal functions names).value 0 (.binary .add lhs rhs) = some (a + b) :=
  value_binary.2 ⟨rfl, a, b, left, right, rfl⟩

theorem value_difference (left : (real toReal functions names).value 0 lhs = some a)
    (right : (real toReal functions names).value 0 rhs = some b) :
    (real toReal functions names).value 0 (.binary .sub lhs rhs) = some (a - b) :=
  value_binary.2 ⟨rfl, a, b, left, right, rfl⟩

theorem value_product (left : (real toReal functions names).value 0 lhs = some a)
    (right : (real toReal functions names).value 0 rhs = some b) :
    (real toReal functions names).value 0 (.binary .mul lhs rhs) = some (a * b) :=
  value_binary.2 ⟨rfl, a, b, left, right, rfl⟩

theorem value_quotient (left : (real toReal functions names).value 0 lhs = some a)
    (right : (real toReal functions names).value 0 rhs = some b) (nonzero : b ≠ 0) :
    (real toReal functions names).value 0 (.binary .div lhs rhs) = some (a / b) :=
  value_binary.2 ⟨rfl, a, b, left, right, divide_some.2 ⟨nonzero, rfl⟩⟩

theorem value_power (left : (real toReal functions names).value 0 lhs = some a)
    (right : (real toReal functions names).value 0 rhs = some b) (result : power a b = some c) :
    (real toReal functions names).value 0 (.binary .pow lhs rhs) = some c :=
  value_binary.2 ⟨rfl, a, b, left, right, result⟩

theorem value_sin (valued : (real toReal functions names).value 0 arg = some a) :
    (real toReal functions names).value 0 (.call "sin" arg) = some (Real.sin a) :=
  value_call.2 ⟨a, valued, real_apply_known (show _ = some .sin from rfl) a⟩

theorem value_cos (valued : (real toReal functions names).value 0 arg = some a) :
    (real toReal functions names).value 0 (.call "cos" arg) = some (Real.cos a) :=
  value_call.2 ⟨a, valued, real_apply_known (show _ = some .cos from rfl) a⟩

theorem value_ln (valued : (real toReal functions names).value 0 arg = some a)
    (positive : 0 < a) :
    (real toReal functions names).value 0 (.call "ln" arg) = some (Real.log a) := by
  refine value_call.2 ⟨a, valued, ?_⟩
  rw [real_apply_known (show NamedFunction.ofName? "ln" = some .ln from rfl)]
  exact if_pos positive

end

variable [Scalar α]

theorem value_whole (exact : ExactNumbers toReal) (n : Nat) :
    (real toReal functions names).value 0 (.num (Scalar.ofNat n) : Expr α) = some (n : ℝ) :=
  congrArg some (exact.of_nat n)

theorem value_square (exact : ExactNumbers toReal) {arg : Expr α} {a : ℝ}
    (valued : (real toReal functions names).value 0 arg = some a) :
    (real toReal functions names).value 0 (.binary .pow arg (.num (Scalar.ofNat 2))) =
      some (a ^ 2) := by
  refine value_power valued (value_whole exact 2) ?_
  exact power_some.2 ⟨power_defined_of_natural a 2, Real.rpow_natCast a 2⟩

theorem real_lawful (exact : ExactNumbers toReal) (euler : names Expr.eulerName = Real.exp 1) :
    (real toReal functions names).Lawful Eq where
  alike_equivalence := eq_equivalence
  same_number := exact.same
  operate_alike left right result := ⟨_, by rw [← left, ← right]; exact result, rfl⟩
  negate_alike := congrArg _
  apply_alike close result := ⟨_, by rw [← close]; exact result, rfl⟩
  marked_unknown {marks name a b} result := by
    cases known : NamedFunction.ofName? name with
    | none => rfl
    | some f => simp [real, known] at result
  fold_number := exact.fold
  negate_number := exact.neg
  negate_negate := neg_neg
  zero_add result := by simpa [whole, exact.of_nat, BinaryOp.overReals] using result
  add_zero result := by simpa [whole, exact.of_nat, BinaryOp.overReals] using result
  add_self result := by simpa [whole, exact.of_nat, BinaryOp.overReals, two_mul] using result
  sub_zero result := by simpa [whole, exact.of_nat, BinaryOp.overReals] using result
  zero_sub result := by simpa [whole, exact.of_nat, BinaryOp.overReals] using result
  sub_self result := by simpa [whole, exact.of_nat, BinaryOp.overReals] using result
  one_mul result := by simpa [whole, exact.of_nat, BinaryOp.overReals] using result
  mul_one result := by simpa [whole, exact.of_nat, BinaryOp.overReals] using result
  zero_mul result := by simpa [whole, exact.of_nat, BinaryOp.overReals] using result
  mul_zero result := by simpa [whole, exact.of_nat, BinaryOp.overReals] using result
  zero_div result := by
    obtain ⟨-, rfl⟩ := divide_some.1 result
    simp [whole, exact.of_nat]
  div_one result := by
    obtain ⟨-, rfl⟩ := divide_some.1 result
    simp [whole, exact.of_nat]
  div_self result := by
    obtain ⟨nonzero, rfl⟩ := divide_some.1 result
    simp [whole, exact.of_nat, nonzero]
  zero_pow {a b} nonzero result := by
    obtain ⟨-, rfl⟩ := power_some.1 result
    have nonzero : a ≠ 0 := by simpa [whole, exact.of_nat] using nonzero
    simp [whole, exact.of_nat, nonzero]
  one_pow result := by
    obtain ⟨-, rfl⟩ := power_some.1 result
    simp [whole, exact.of_nat]
  pow_zero result := by
    obtain ⟨-, rfl⟩ := power_some.1 result
    simp [whole, exact.of_nat]
  pow_one result := by
    obtain ⟨-, rfl⟩ := power_some.1 result
    simp [whole, exact.of_nat]
  sin_zero result := by
    rw [real_apply_known (show NamedFunction.ofName? "sin" = some .sin from rfl)] at result
    simpa [whole, exact.of_nat, Exact.apply] using result
  tg_zero result := by
    rw [real_apply_known (show NamedFunction.ofName? "tg" = some .tg from rfl)] at result
    simpa [whole, exact.of_nat, Exact.apply] using result
  cos_zero result := by
    rw [real_apply_known (show NamedFunction.ofName? "cos" = some .cos from rfl)] at result
    simpa [whole, exact.of_nat, Exact.apply] using result
  ln_one result := by
    rw [real_apply_known (show NamedFunction.ofName? "ln" = some .ln from rfl)] at result
    simpa [whole, exact.of_nat, Exact.apply] using result
  ln_euler bound result := by
    rw [real_name, euler, Option.some.injEq] at bound
    subst bound
    rw [real_apply_known (show NamedFunction.ofName? "ln" = some .ln from rfl)] at result
    simpa [whole, exact.of_nat, Exact.apply, Real.exp_pos] using result

end Reading

end Fluxion
