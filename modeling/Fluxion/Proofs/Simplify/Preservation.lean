import Fluxion.Expr.Evaluation
import Fluxion.Proofs.Meaning.Soundness
import Fluxion.Proofs.Scalar.Identities
import Fluxion.Proofs.Simplify.Settling

/-!
Optimization preserves evaluation. Evaluation is one of the readings of a tree, in
which nothing under a derivative marker has a value, and the laws of such a reading
follow from the identities of the arithmetic.
-/

namespace Fluxion

open Outcome Scalar

variable {α : Type} [Scalar α]

namespace Reading

def evaluation (bindings : Bindings α) : Reading α α where
  number value := value
  name := bindings
  negate := Scalar.neg
  operate op a b := (op.fold a b).toOption.join
  apply
    | 0, name, a => do Scalar.apply (← NamedFunction.ofName? name) a
    | _ + 1, _, _ => none

theorem operate_evaluation {bindings : Bindings α} {op : BinaryOp} {a b c : α} :
    (evaluation bindings).operate op a b = some c ↔ op.fold a b = .ok (some c) := by
  show (op.fold a b).toOption.join = some c ↔ _
  cases op.fold a b <;> simp [Except.toOption]

theorem fold_some {op : BinaryOp} {a b : α} {c : α} :
    op.fold a b = .ok (some c) ↔ match op with
      | .add => Scalar.add a b = some c
      | .sub => Scalar.sub a b = some c
      | .mul => Scalar.mul a b = some c
      | .div => Scalar.div a b = some c
      | .pow => Scalar.pow a b = some c
      | .other _ => False := by
  cases op <;> simp [BinaryOp.fold]

theorem apply_evaluation {bindings : Bindings α} {marks : Nat} {name : String} {a b : α} :
    (evaluation bindings).apply marks name a = some b ↔
      marks = 0 ∧ ∃ f, NamedFunction.ofName? name = some f ∧ Scalar.apply f a = some b := by
  cases marks <;> simp [evaluation, Option.bind_eq_some_iff]

theorem evaluation_under_marker (bindings : Bindings α) (tree : Expr α) (marks : Nat) :
    (evaluation bindings).value (marks + 1) tree = none := by
  rw [Option.eq_none_iff_forall_not_mem]
  intro a valued
  induction tree generalizing marks with
  | missing => simp at valued
  | num value => simp [value_num] at valued
  | var name => simp [value_var] at valued
  | binary op lhs rhs => simp [value_binary] at valued
  | signed op operand => simp [value_signed] at valued
  | marked op operand inner => exact inner (marks + 1) (value_marked.1 valued).2
  | call name arg =>
      obtain ⟨b, -, applied⟩ := value_call.1 valued
      exact Nat.succ_ne_zero marks (apply_evaluation.1 applied).1

theorem evaluate_binary {bindings : Bindings α} {op : BinaryOp} {lhs rhs : Expr α} {c : α} :
    (Expr.binary op lhs rhs).evaluateIn bindings = .ok c ↔
      ∃ a b, lhs.evaluateIn bindings = .ok a ∧ rhs.evaluateIn bindings = .ok b ∧
        op.fold a b = .ok (some c) := by
  rw [Expr.evaluateIn]
  simp only [bind_eq_ok]
  constructor
  · rintro ⟨a, left, b, right, result, folded, done⟩
    cases result with
    | none => simp at done
    | some value =>
        obtain rfl := pure_eq_ok.1 done
        exact ⟨a, b, left, right, folded⟩
  · rintro ⟨a, b, left, right, folded⟩
    exact ⟨a, left, b, right, some c, folded, rfl⟩

theorem evaluate_signed {bindings : Bindings α} {op : SignOp} {operand : Expr α} {c : α} :
    (Expr.signed op operand).evaluateIn bindings = .ok c ↔
      ∃ a, operand.evaluateIn bindings = .ok a ∧ (if op = .minus then neg a else a) = c := by
  rw [Expr.evaluateIn]
  simp only [bind_eq_ok, pure_eq_ok]

/-- Evaluation returns exactly the value of its reading. -/
theorem evaluate_iff_value {bindings : Bindings α} {tree : Expr α} {a : α} :
    tree.evaluateIn bindings = .ok a ↔ (evaluation bindings).value 0 tree = some a := by
  induction tree generalizing a with
  | missing => simp [Expr.evaluateIn]
  | num value => simp [Expr.evaluateIn, value_num, evaluation]
  | var name =>
      rw [value_var, Expr.evaluateIn]
      show _ ↔ 0 = 0 ∧ bindings name = some a
      cases bindings name <;> simp
  | binary op lhs rhs left right =>
      rw [value_binary, evaluate_binary]
      simp only [left, right, operate_evaluation, true_and]
  | signed op operand inner =>
      rw [value_signed, evaluate_signed]
      simp only [inner, true_and]
      rfl
  | marked op operand inner =>
      rw [value_marked, evaluation_under_marker]
      simp [Expr.evaluateIn]
  | call name arg inner =>
      rw [value_call, Expr.evaluateIn]
      simp only [apply_evaluation, true_and]
      cases NamedFunction.ofName? name with
      | none => simp
      | some f =>
          simp only [bind_eq_ok, inner, Option.some.injEq, exists_eq_left']
          constructor
          · rintro ⟨b, valueInner, done⟩
            cases applied : Scalar.apply f b with
            | none => simp [applied] at done
            | some value =>
                rw [applied] at done
                exact ⟨b, valueInner, by rw [applied, pure_eq_ok.1 done]⟩
          · rintro ⟨b, valueInner, applied⟩
            exact ⟨b, valueInner, by rw [applied]; rfl⟩

theorem not_same_of_not_alike {a b : α} (apart : ¬ Alike a b) : same a b = false := by
  rw [← Bool.not_eq_true]
  exact fun same => apart (.inr same)

theorem evaluation_lawful (identities : Identities α) (bindings : Bindings α)
    (euler : bindings Expr.eulerName = some Scalar.euler) :
    (evaluation bindings).Lawful Alike where
  alike_equivalence := identities.alike_equivalence
  same_number same := .inr same
  operate_alike left right result := by
    simp only [operate_evaluation] at result ⊢
    exact identities.fold_alike left right result
  negate_alike := identities.neg_alike
  apply_alike close result := by
    simp only [apply_evaluation] at result ⊢
    obtain ⟨rfl, f, named, applied⟩ := result
    obtain ⟨b', applied', close'⟩ := identities.apply_alike close applied
    exact ⟨b', ⟨rfl, f, named, applied'⟩, close'⟩
  marked_unknown result := absurd (apply_evaluation.1 result).1 (Nat.succ_ne_zero _)
  fold_number folds result := by
    rw [operate_evaluation, evaluation, folds] at result
    cases result
    exact .inl rfl
  negate_number a := .inl rfl
  negate_negate := identities.neg_neg
  zero_add result := by
    have sum := fold_some.1 (operate_evaluation.1 result)
    exact identities.zero_add (identities.add_finite sum).2 sum
  add_zero result := by
    have sum := fold_some.1 (operate_evaluation.1 result)
    exact identities.add_zero (identities.add_finite sum).1 sum
  add_self result := by
    have sum := fold_some.1 (operate_evaluation.1 result)
    obtain ⟨c, product, close⟩ := identities.add_self (identities.add_finite sum).1 sum
    exact ⟨c, operate_evaluation.2 (fold_some.2 product), close⟩
  sub_zero result := by
    have difference := fold_some.1 (operate_evaluation.1 result)
    exact identities.sub_zero (identities.sub_finite difference).1 difference
  zero_sub result := by
    have difference := fold_some.1 (operate_evaluation.1 result)
    exact identities.zero_sub (identities.sub_finite difference).2 difference
  sub_self result := by
    have difference := fold_some.1 (operate_evaluation.1 result)
    exact identities.sub_self (identities.sub_finite difference).1 difference
  one_mul result := by
    have product := fold_some.1 (operate_evaluation.1 result)
    exact identities.one_mul (identities.mul_finite product).2 product
  mul_one result := by
    have product := fold_some.1 (operate_evaluation.1 result)
    exact identities.mul_one (identities.mul_finite product).1 product
  zero_mul result := by
    have product := fold_some.1 (operate_evaluation.1 result)
    exact identities.zero_mul (identities.mul_finite product).2 product
  mul_zero result := by
    have product := fold_some.1 (operate_evaluation.1 result)
    exact identities.mul_zero (identities.mul_finite product).1 product
  zero_div result := by
    have quotient := fold_some.1 (operate_evaluation.1 result)
    obtain ⟨-, number, nonzero⟩ := identities.div_domain quotient
    exact identities.zero_div number nonzero quotient
  div_one result := identities.div_one (fold_some.1 (operate_evaluation.1 result))
  div_self result := by
    have quotient := fold_some.1 (operate_evaluation.1 result)
    obtain ⟨finite, -, nonzero⟩ := identities.div_domain quotient
    exact identities.div_self finite nonzero quotient
  zero_pow nonzero result := by
    have power := fold_some.1 (operate_evaluation.1 result)
    exact identities.zero_pow (identities.zero_pow_domain power)
      (not_same_of_not_alike nonzero) power
  one_pow result := identities.one_pow (fold_some.1 (operate_evaluation.1 result))
  pow_zero result := identities.pow_zero (fold_some.1 (operate_evaluation.1 result))
  pow_one result := identities.pow_one (fold_some.1 (operate_evaluation.1 result))
  sin_zero result := by
    obtain ⟨-, f, named, applied⟩ := apply_evaluation.1 result
    cases named
    exact identities.sin_zero applied
  tg_zero result := by
    obtain ⟨-, f, named, applied⟩ := apply_evaluation.1 result
    cases named
    exact identities.tg_zero applied
  cos_zero result := by
    obtain ⟨-, f, named, applied⟩ := apply_evaluation.1 result
    cases named
    exact identities.cos_zero applied
  ln_one result := by
    obtain ⟨-, f, named, applied⟩ := apply_evaluation.1 result
    cases named
    exact identities.ln_one applied
  ln_euler bound result := by
    obtain ⟨-, f, named, applied⟩ := apply_evaluation.1 result
    cases named
    cases euler.symm.trans bound
    exact identities.ln_euler applied

end Reading

namespace Simplify

open Reading

variable {epsilon : α} {tree : Expr α} {variableName : String} {value w : α}
variable {environment : Bindings α}

/-- A tree that has a value is optimized to a tree with that value, up to the sign of
a zero. The other case is a tree so deep that the sweeps run out. -/
theorem run_preserves_value (identities : Identities α)
    (sharp : ∀ a b : α, near epsilon a b = true → same a b = true) (built : tree.Built)
    (euler : Bindings.ofVariable variableName value environment Expr.eulerName =
      some Scalar.euler)
    (evaluates : tree.evaluate value variableName environment = .ok w)
    (regular : (evaluation (Bindings.ofVariable variableName value environment)).NoZeroToZero
      Alike tree) :
    (∃ result w', run epsilon tree = .ok result ∧
      result.tree.evaluate value variableName environment = .ok w' ∧ Alike w' w) ∨
    (sweepLimit ≤ tree.depth ∧
      run epsilon tree = .error (.simplification (.unsettled sweepLimit))) := by
  rcases run_of_built built with ⟨result, done⟩ | unsettled
  · have lawful := evaluation_lawful identities _ euler
    have sharpReading : Sharp (evaluation (Bindings.ofVariable variableName value environment))
        Alike epsilon := fun a b near => .inr (sharp a b near)
    have valued := evaluate_iff_value.1 evaluates
    obtain ⟨⟨w', valued', close⟩, -⟩ :=
      (run_rewrites done).value lawful sharpReading built valued regular
    exact .inl ⟨result, w', done, evaluate_iff_value.2 valued', close⟩
  · exact .inr unsettled

section

open Exact

/-- Over the reals, `(x + 0)^2` at `x = 3` keeps its value 9. -/
theorem run_preserves_value_of_square :
    ∃ result w',
      run (0 : ℝ) (.binary .pow (.binary .add (.var "x") (.num 0)) (.num 2)) = .ok result ∧
        result.tree.evaluate 3 "x" Bindings.none = .ok w' ∧ Alike w' 9 := by
  have shallow : ¬ sweepLimit ≤
      (Expr.binary .pow (.binary .add (.var "x") (.num (0 : ℝ))) (.num 2)).depth := by
    simp [Expr.depth_eq_height, Expr.height, sweepLimit]
  refine (run_preserves_value Exact.identities ?_ ?_ ?_ ?_ ?_).resolve_right
    fun unsettled => shallow unsettled.1
  · exact fun a b near => same_real.2 (near_real.1 near)
  · simp [BinaryOp.isKnown]
  · rfl
  · have square : power 3 2 = some 9 := power_some.2 ⟨.inl (by norm_num), by norm_num⟩
    simp [Expr.evaluate, Expr.evaluateIn, Bindings.ofVariable, BinaryOp.fold, square]
  · simp [NoZeroToZero, value_num, evaluation, alike_iff, whole]

end

end Simplify

end Fluxion
