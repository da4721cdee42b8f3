import Fluxion.Proofs.Derivative.Relation
import Fluxion.Proofs.Meaning.Real
import Fluxion.Proofs.Meaning.Slope
import Mathlib

/-!
The rules of differentiation give derivatives. Trees are read as partial functions of
one variable; at a point where a tree is regular, the tree that the rules make of it
has a value, and that value is the derivative there. The constant exponent that
differentiation optimizes keeps its value because rewriting is sound for this reading.
-/

namespace Fluxion

open Exact Filter Reading Simplify Topology
open scoped ContDiff

def NamedFunction.InDomain : NamedFunction → ℝ → Prop
  | .sin, _ | .cos, _ => True
  | .tg, a => Real.cos a ≠ 0
  | .ctg, a => Real.sin a ≠ 0
  | .ln, a => 0 < a

/-- No place of the tree is at the edge of a domain: divisors are not zero, named
functions are inside their domains, and a power has a positive base or an exponent
without the variable that is a natural number, and is not zero to zero. -/
def Expr.Regular {α : Type} (R : Reading α ℝ) (v : String) : Expr α → Prop
  | missing | num _ | var _ => True
  | binary op lhs rhs => lhs.Regular R v ∧ rhs.Regular R v ∧
      ∀ a b, R.value 0 lhs = some a → R.value 0 rhs = some b →
        (op = .div → b ≠ 0) ∧
        (op = .pow → (0 < a ∨ rhs.isConstant v = true ∧ ∃ n : ℕ, b = n) ∧ ¬ (a = 0 ∧ b = 0))
  | signed _ operand | marked _ operand => operand.Regular R v
  | call name arg => arg.Regular R v ∧
      ∀ f a, NamedFunction.ofName? name = some f → R.value 0 arg = some a → f.InDomain a

variable {α : Type} {toReal : α → ℝ} {functions : String → ℝ → ℝ}

section

variable {g : ℝ → Option ℝ} {slope x a b : ℝ}

theorem HasSlope.power_constant (base : HasSlope g slope x) (atPoint : g x = some a)
    (regular : 0 < a ∨ ∃ n : ℕ, b = n) (notZeroToZero : ¬ (a = 0 ∧ b = 0)) :
    HasSlope (fun y => (g y).bind fun p => power p b) (b * a ^ (b - 1) * slope) x := by
  have smooth : a ≠ 0 ∨ 1 ≤ b := by
    rcases regular with positive | ⟨n, rfl⟩
    · exact .inl positive.ne'
    · cases n with
      | zero => exact .inl fun zero => notZeroToZero ⟨zero, Nat.cast_zero⟩
      | succ n => exact .inr (by simp)
  have defined : ∀ᶠ u in 𝓝 a, power u b = some (u ^ b) := by
    rcases regular with positive | ⟨n, rfl⟩
    · filter_upwards [eventually_gt_nhds positive] with u inside
      exact power_some.2 ⟨.inl inside, rfl⟩
    · exact Eventually.of_forall fun u => power_some.2 ⟨power_defined_of_natural u n, rfl⟩
  exact base.bind atPoint (.of_eventually defined (Real.hasDerivAt_rpow_const smooth))

/-- The lowered power that the power rule writes down has a value. -/
theorem power_lowered (regular : 0 < a ∨ ∃ n : ℕ, b = n) (notZeroToZero : ¬ (a = 0 ∧ b = 0)) :
    power a (b - 1) = some (a ^ (b - 1)) := by
  refine power_some.2 ⟨?_, rfl⟩
  rcases regular with positive | ⟨n, rfl⟩
  · exact .inl positive
  · cases n with
    | succ n =>
        have lowered : ((n + 1 : ℕ) : ℝ) - 1 = n := by simp
        rw [lowered]
        exact power_defined_of_natural a n
    | zero =>
        rcases lt_trichotomy a 0 with negative | zero | positive
        · exact .inr (.inr ⟨negative, -1, by simp⟩)
        · exact absurd ⟨zero, Nat.cast_zero⟩ notZeroToZero
        · exact .inl positive

section

variable {names : String → ℝ} {arg : Expr α}

variable [Scalar α]

theorem named_slope (exact : ExactNumbers toReal) {f : NamedFunction} (inside : f.InDomain a)
    (valued : (real toReal functions names).value 0 arg = some a) :
    ∃ outer, HasSlope (Exact.apply f) outer a ∧
      (real toReal functions names).value 0 (f.slope arg) = some outer := by
  have one : (real toReal functions names).value 0 _ = _ := value_whole exact 1
  cases f with
  | sin => exact ⟨Real.cos a, .of_total (Real.hasDerivAt_sin a), value_cos valued⟩
  | cos =>
      refine ⟨-Real.sin a, .of_total (Real.hasDerivAt_cos a), ?_⟩
      exact value_signed.2 ⟨rfl, _, value_sin valued, rfl⟩
  | tg =>
      have nonzero : Real.cos a ≠ 0 := inside
      have defined : ∀ᶠ u in 𝓝 a, Exact.apply .tg u = some (Real.tan u) := by
        filter_upwards [Real.continuous_cos.continuousAt.eventually_ne nonzero] with u inside
        exact if_neg inside
      refine ⟨1 / Real.cos a ^ 2, .of_eventually defined (Real.hasDerivAt_tan nonzero), ?_⟩
      refine value_binary.2 ⟨rfl, _, _, one, value_square exact (value_cos valued), ?_⟩
      exact divide_some.2 ⟨pow_ne_zero 2 nonzero, by rw [Nat.cast_one]⟩
  | ctg =>
      have nonzero : Real.sin a ≠ 0 := inside
      have defined : ∀ᶠ u in 𝓝 a, Exact.apply .ctg u = some (Real.cos u / Real.sin u) := by
        filter_upwards [Real.continuous_sin.continuousAt.eventually_ne nonzero] with u inside
        rw [← Real.cot_eq_cos_div_sin]
        exact if_neg inside
      have derivative : HasDerivAt (fun u => Real.cos u / Real.sin u) (-1 / Real.sin a ^ 2) a := by
        refine ((Real.hasDerivAt_cos a).div (Real.hasDerivAt_sin a) nonzero).congr_deriv ?_
        rw [← Real.sin_sq_add_cos_sq a]
        ring
      refine ⟨-1 / Real.sin a ^ 2, .of_eventually defined derivative, ?_⟩
      refine value_binary.2 ⟨rfl, -1, _, value_signed.2 ⟨rfl, _, one, ?_⟩,
        value_square exact (value_sin valued), ?_⟩
      · simp
      · exact divide_some.2 ⟨pow_ne_zero 2 nonzero, rfl⟩
  | ln =>
      have positive : 0 < a := inside
      have defined : ∀ᶠ u in 𝓝 a, Exact.apply .ln u = some (Real.log u) := by
        filter_upwards [eventually_gt_nhds positive] with u inside
        exact if_pos inside
      refine ⟨a⁻¹, .of_eventually defined (Real.hasDerivAt_log positive.ne'), ?_⟩
      refine value_binary.2 ⟨rfl, _, a, one, valued, ?_⟩
      exact divide_some.2 ⟨positive.ne', by simp⟩

end

/-- The rule for a power in which both parts vary, at a positive base. -/
theorem HasSlope.power {h : ℝ → Option ℝ} {slope' : ℝ} (base : HasSlope g slope x)
    (exponent : HasSlope h slope' x) (atBase : g x = some a) (atExponent : h x = some b)
    (positive : 0 < a) :
    HasSlope (fun y => (g y).bind fun p => (h y).bind fun q => Exact.power p q)
      (slope * b * a ^ (b - 1) + slope' * a ^ b * Real.log a) x := by
  refine base.pair exponent atBase atExponent ?_
  rintro f k derivative derivative' rfl rfl
  have defined : ∀ᶠ y in 𝓝 x, Exact.power (f y) (k y) = some (f y ^ k y) := by
    filter_upwards [derivative.continuousAt.eventually (eventually_gt_nhds positive)] with y inside
    exact power_some.2 ⟨.inl inside, rfl⟩
  exact .of_eventually defined (derivative.rpow derivative' positive)

end

section

variable [Scalar α] {names names' : String → ℝ} {v : String}

/-- A regular tree raises no zero to zero, and neither does it at another value of a
variable that it does not contain. -/
theorem regular_no_zero_to_zero (exact : ExactNumbers toReal) {tree : Expr α}
    (constant : tree.isConstant v = true) (agree : ∀ name, name ≠ v → names name = names' name)
    (regular : tree.Regular (real toReal functions names) v) :
    (real toReal functions names').NoZeroToZero Eq tree := by
  induction tree with
  | missing | num _ | var _ => trivial
  | binary op lhs rhs left right =>
      simp only [Expr.isConstant, Bool.and_eq_true] at constant
      obtain ⟨regularLeft, regularRight, atNode⟩ := regular
      refine ⟨left constant.1 regularLeft, right constant.2 regularRight, ?_⟩
      intro power a b valueLeft valueRight zeros
      rw [← value_of_constant constant.1 agree] at valueLeft
      rw [← value_of_constant constant.2 agree] at valueRight
      have notZeros := ((atNode a b valueLeft valueRight).2 power).2
      have whole : (real toReal functions names').whole 0 = 0 := by simp [whole, exact.of_nat]
      rw [whole] at zeros
      exact notZeros zeros
  | signed op operand inner | marked op operand inner => exact inner constant regular
  | call name arg inner => exact inner constant regular.1

theorem optimized_value (exact : ExactNumbers toReal) {others : String → ℝ} {x b : ℝ}
    {tree optimized : Expr α} (built : tree.Built) (constant : tree.isConstant v = true)
    (done : tree.optimize = .ok optimized)
    (regular : tree.Regular (real toReal functions (realNames others v x)) v)
    (valued : (real toReal functions (realNames others v x)).value 0 tree = some b) :
    (real toReal functions (realNames others v x)).value 0 optimized = some b := by
  -- Simplification takes `e` for Euler's number, which it is not when `e` is the variable.
  let names : String → ℝ := fun name =>
    if name = Expr.eulerName then Real.exp 1 else realNames others v x name
  have agree : ∀ name, name ≠ v → realNames others v x name = names name := by
    intro name differs
    by_cases euler : name = Expr.eulerName
    · subst euler
      simp [names, realNames, differs]
    · simp [names, euler]
  have rewrites := Expr.optimize_rewrites done
  have lawful : (real toReal functions names).Lawful Eq := real_lawful exact (if_pos rfl)
  have sharp : Sharp (real toReal functions names) Eq Scalar.tolerance :=
    fun _ _ near => exact.near near
  rw [value_of_constant constant agree] at valued
  obtain ⟨⟨b', valued', rfl⟩, -⟩ := rewrites.value lawful sharp built valued
    (regular_no_zero_to_zero exact constant agree regular)
  rw [value_of_constant (rewrites.constant constant) agree]
  exact valued'

end

def Expr.markers : Expr α → Nat
  | marked .prime operand => operand.markers + 1
  | _ => 0

/-- A chain of markers over a call is the derivative of that order of its function. -/
theorem value_under_markers {R : Reading α ℝ} {tree arg : Expr α} {name : String}
    (under : tree.underMarkers = .call name arg) (marks : Nat) :
    R.value marks tree = (R.value 0 arg).bind (R.apply (marks + tree.markers) name) := by
  induction tree generalizing marks with
  | marked op operand inner =>
      cases op with
      | prime =>
          have below := inner under (marks + 1)
          rw [Nat.add_right_comm] at below
          cases marks <;> exact below
      | other symbol => cases under
  | call name' arg' =>
      cases under
      cases marks <;> rfl
  | _ => cases under

section

variable {others : String → ℝ} {v : String} {x slope a : ℝ} {tree arg : Expr α}

noncomputable def Expr.asFunction (toReal : α → ℝ) (functions : String → ℝ → ℝ)
    (others : String → ℝ) (v : String) (tree : Expr α) (x : ℝ) : Option ℝ :=
  (real toReal functions (realNames others v x)).value 0 tree

theorem marked_slope {name : String} (smooth : ContDiff ℝ ∞ (functions name))
    (nameless : NamedFunction.ofName? name = none) (under : tree.underMarkers = .call name arg)
    (argument : HasSlope (arg.asFunction toReal functions others v) slope x)
    (atArgument : arg.asFunction toReal functions others v x = some a) :
    HasSlope (tree.asFunction toReal functions others v)
      (iteratedDeriv (tree.markers + 1) (functions name) a * slope) x := by
  have derivative : HasDerivAt (iteratedDeriv tree.markers (functions name))
      (iteratedDeriv (tree.markers + 1) (functions name) a) a := by
    rw [iteratedDeriv_succ]
    have finite : ((tree.markers : ℕ∞) : WithTop ℕ∞) < ∞ := by
      exact_mod_cast ENat.natCast_lt_top tree.markers
    exact (smooth.differentiable_iteratedDeriv tree.markers finite a).hasDerivAt
  have chain := argument.bind atArgument (.of_total derivative)
  have same : tree.asFunction toReal functions others v = fun y =>
      (arg.asFunction toReal functions others v y).bind fun u =>
        some (iteratedDeriv tree.markers (functions name) u) := by
    funext y
    rw [Expr.asFunction, value_under_markers under 0]
    simp only [real_apply_unknown nameless, Nat.zero_add]
    rfl
  rw [same]
  exact chain

theorem constant_as_function (constant : tree.isConstant v = true) (x y : ℝ) :
    tree.asFunction toReal functions others v x = tree.asFunction toReal functions others v y := by
  refine value_of_constant constant ?_ 0
  intro name differs
  simp only [realNames, if_neg differs]

theorem constant_slope (constant : tree.isConstant v = true)
    (valued : tree.asFunction toReal functions others v x = some a) :
    HasSlope (tree.asFunction toReal functions others v) 0 x :=
  .of_constant fun y => (constant_as_function constant y x).trans valued

theorem call_as_function {name : String} {f : NamedFunction}
    (named : NamedFunction.ofName? name = some f) :
    (Expr.call name arg).asFunction toReal functions others v =
      fun y => (arg.asFunction toReal functions others v y).bind (Exact.apply f) := by
  funext y
  have same : (real toReal functions (realNames others v y)).apply 0 name = Exact.apply f :=
    funext (real_apply_known named)
  rw [← same]
  rfl

theorem marked_value {name : String} (nameless : NamedFunction.ofName? name = none)
    (under : tree.underMarkers = .call name arg)
    (atArgument : arg.asFunction toReal functions others v x = some a) :
    (Expr.marked .prime tree).asFunction toReal functions others v x =
      some (iteratedDeriv (tree.markers + 1) (functions name) a) := by
  have chain : (Expr.marked .prime tree).underMarkers = .call name arg := under
  rw [Expr.asFunction, value_under_markers chain 0]
  rw [Expr.asFunction] at atArgument
  rw [atArgument, Option.bind_some, real_apply_unknown nameless, Nat.zero_add]
  rfl

end

section

variable [Scalar α] {others : String → ℝ} {v : String} {x : ℝ} {lhs rhs arg operand : Expr α}

/-- At the point the tree has a slope, and every tree that the rules give for its
derivative has that slope as its value. -/
def Expr.DifferentiatesAt (toReal : α → ℝ) (functions : String → ℝ → ℝ)
    (others : String → ℝ) (v : String) (x : ℝ) (tree : Expr α) : Prop :=
  ∃ slope, HasSlope (tree.asFunction toReal functions others v) slope x ∧
    ∀ derivative, tree.DerivesTo v derivative →
      derivative.asFunction toReal functions others v x = some slope

theorem whole_as_function (exact : ExactNumbers toReal) (n : Nat) :
    (Expr.num (Scalar.ofNat n) : Expr α).asFunction toReal functions others v x = some (n : ℝ) :=
  value_whole exact n

theorem differentiates_number (exact : ExactNumbers toReal) (value : α) :
    (Expr.num value).DifferentiatesAt toReal functions others v x := by
  refine ⟨0, constant_slope rfl rfl, ?_⟩
  rintro _ ⟨⟩
  rw [whole_as_function exact 0, Nat.cast_zero]

theorem differentiates_variable (exact : ExactNumbers toReal) (name : String) :
    (Expr.var name : Expr α).DifferentiatesAt toReal functions others v x := by
  by_cases same : name = v
  · subst same
    have identity : (Expr.var name : Expr α).asFunction toReal functions others name = some := by
      funext y
      exact congrArg some (if_pos rfl)
    refine ⟨1, ?_, ?_⟩
    · rw [identity]
      exact .of_total (hasDerivAt_id x)
    · intro derivative derives
      cases derives with
      | itself => rw [whole_as_function exact 1, Nat.cast_one]
      | other differs => exact absurd rfl differs
  · refine ⟨0, constant_slope (by simpa [Expr.isConstant] using same) rfl, ?_⟩
    intro derivative derives
    cases derives with
    | itself => exact absurd rfl same
    | other differs => rw [whole_as_function exact 0, Nat.cast_zero]

theorem differentiates_sign {op : SignOp} (known : op.isKnown = true)
    (inner : operand.DifferentiatesAt toReal functions others v x) :
    (Expr.signed op operand).DifferentiatesAt toReal functions others v x := by
  obtain ⟨slope, hasSlope, valued⟩ := inner
  obtain ⟨a, atPoint⟩ := hasSlope.value
  have outer : HasSlope (fun u => some (if op = .minus then -u else u))
      (if op = .minus then -1 else 1) a := by
    cases op with
    | minus => exact .of_total (hasDerivAt_id a).neg
    | plus => exact .of_total (hasDerivAt_id a)
    | other symbol => cases known
  refine ⟨_, hasSlope.bind atPoint outer, ?_⟩
  intro derivative derives
  cases derives with
  | sign op argument =>
      refine value_signed.2 ⟨rfl, slope, valued _ argument, ?_⟩
      cases op <;> simp

theorem differentiates_known (exact : ExactNumbers toReal) {name : String} {f : NamedFunction}
    (named : NamedFunction.ofName? name = some f)
    (inside : ∀ a, arg.asFunction toReal functions others v x = some a → f.InDomain a)
    (inner : arg.DifferentiatesAt toReal functions others v x) :
    (Expr.call name arg).DifferentiatesAt toReal functions others v x := by
  obtain ⟨slope, hasSlope, valued⟩ := inner
  obtain ⟨a, atPoint⟩ := hasSlope.value
  obtain ⟨outer, outerSlope, outerValue⟩ := named_slope exact (inside a atPoint) atPoint
  refine ⟨outer * slope, ?_, ?_⟩
  · rw [call_as_function named]
    exact hasSlope.bind atPoint outerSlope
  · intro derivative derives
    cases derives with
    | known named' argument =>
        cases named.symm.trans named'
        exact value_product outerValue (valued _ argument)
    | unknown nameless argument => cases named.symm.trans nameless

theorem differentiates_unknown {name : String} (smooth : ContDiff ℝ ∞ (functions name))
    (nameless : NamedFunction.ofName? name = none)
    (inner : arg.DifferentiatesAt toReal functions others v x) :
    (Expr.call name arg).DifferentiatesAt toReal functions others v x := by
  obtain ⟨slope, hasSlope, valued⟩ := inner
  obtain ⟨a, atPoint⟩ := hasSlope.value
  refine ⟨_, marked_slope smooth nameless rfl hasSlope atPoint, ?_⟩
  intro derivative derives
  cases derives with
  | known named argument => cases named.symm.trans nameless
  | unknown _ argument =>
      exact value_product (marked_value nameless rfl atPoint) (valued _ argument)

theorem differentiates_marked {name : String} (smooth : ContDiff ℝ ∞ (functions name))
    (nameless : NamedFunction.ofName? name = none)
    (under : operand.underMarkers = .call name arg)
    (inner : arg.DifferentiatesAt toReal functions others v x) :
    (Expr.marked .prime operand).DifferentiatesAt toReal functions others v x := by
  obtain ⟨slope, hasSlope, valued⟩ := inner
  obtain ⟨a, atPoint⟩ := hasSlope.value
  have chain : (Expr.marked .prime operand).underMarkers = .call name arg := under
  refine ⟨_, marked_slope smooth nameless chain hasSlope atPoint, ?_⟩
  intro derivative derives
  cases derives with
  | marker under' argument =>
      cases under.symm.trans under'
      exact value_product (marked_value nameless chain atPoint) (valued _ argument)

section

variable (left : lhs.DifferentiatesAt toReal functions others v x)
variable (right : rhs.DifferentiatesAt toReal functions others v x)

include left right

theorem differentiates_sum :
    (Expr.binary .add lhs rhs).DifferentiatesAt toReal functions others v x := by
  obtain ⟨slopeLeft, hasLeft, valueLeft⟩ := left
  obtain ⟨slopeRight, hasRight, valueRight⟩ := right
  obtain ⟨a, atLeft⟩ := hasLeft.value
  obtain ⟨b, atRight⟩ := hasRight.value
  refine ⟨slopeLeft + slopeRight, ?_, ?_⟩
  · exact hasLeft.pair hasRight atLeft atRight fun f k derivative derivative' _ _ =>
      .of_total (derivative.add derivative')
  · intro derivative derives
    cases derives with
    | sum first second => exact value_sum (valueLeft _ first) (valueRight _ second)

theorem differentiates_difference :
    (Expr.binary .sub lhs rhs).DifferentiatesAt toReal functions others v x := by
  obtain ⟨slopeLeft, hasLeft, valueLeft⟩ := left
  obtain ⟨slopeRight, hasRight, valueRight⟩ := right
  obtain ⟨a, atLeft⟩ := hasLeft.value
  obtain ⟨b, atRight⟩ := hasRight.value
  refine ⟨slopeLeft - slopeRight, ?_, ?_⟩
  · exact hasLeft.pair hasRight atLeft atRight fun f k derivative derivative' _ _ =>
      .of_total (derivative.sub derivative')
  · intro derivative derives
    cases derives with
    | difference first second => exact value_difference (valueLeft _ first) (valueRight _ second)

theorem differentiates_product :
    (Expr.binary .mul lhs rhs).DifferentiatesAt toReal functions others v x := by
  obtain ⟨slopeLeft, hasLeft, valueLeft⟩ := left
  obtain ⟨slopeRight, hasRight, valueRight⟩ := right
  obtain ⟨a, atLeft⟩ := hasLeft.value
  obtain ⟨b, atRight⟩ := hasRight.value
  refine ⟨a * slopeRight + slopeLeft * b, ?_, ?_⟩
  · refine hasLeft.pair hasRight atLeft atRight ?_
    rintro f k derivative derivative' rfl rfl
    exact .of_total ((derivative.mul derivative').congr_deriv (add_comm _ _))
  · intro derivative derives
    cases derives with
    | product first second =>
        exact value_sum (value_product atLeft (valueRight _ second))
          (value_product (valueLeft _ first) atRight)

theorem differentiates_quotient (exact : ExactNumbers toReal)
    (nonzero : ∀ b, rhs.asFunction toReal functions others v x = some b → b ≠ 0) :
    (Expr.binary .div lhs rhs).DifferentiatesAt toReal functions others v x := by
  obtain ⟨slopeLeft, hasLeft, valueLeft⟩ := left
  obtain ⟨slopeRight, hasRight, valueRight⟩ := right
  obtain ⟨a, atLeft⟩ := hasLeft.value
  obtain ⟨b, atRight⟩ := hasRight.value
  have nonzero := nonzero b atRight
  refine ⟨(slopeLeft * b - a * slopeRight) / b ^ 2, ?_, ?_⟩
  · refine hasLeft.pair hasRight atLeft atRight ?_
    rintro f k derivative derivative' rfl rfl
    have defined : ∀ᶠ y in 𝓝 x, divide (f y) (k y) = some (f y / k y) := by
      filter_upwards [derivative'.continuousAt.eventually_ne nonzero] with y inside
      exact divide_some.2 ⟨inside, rfl⟩
    exact .of_eventually defined (derivative.div derivative' nonzero)
  · intro derivative derives
    cases derives with
    | quotient first second =>
        have numerator := value_difference (value_product (valueLeft _ first) atRight)
          (value_product atLeft (valueRight _ second))
        exact value_quotient numerator (value_square exact atRight) (pow_ne_zero 2 nonzero)

theorem differentiates_power_constant (exact : ExactNumbers toReal) (built : rhs.Built)
    (constant : rhs.isConstant v = true)
    (regular : (Expr.binary .pow lhs rhs).Regular (real toReal functions (realNames others v x))
      v) : (Expr.binary .pow lhs rhs).DifferentiatesAt toReal functions others v x := by
  obtain ⟨slope, base, valueLeft⟩ := left
  obtain ⟨_, exponent, -⟩ := right
  obtain ⟨a, atBase⟩ := base.value
  obtain ⟨b, atExponent⟩ := exponent.value
  obtain ⟨-, regularRight, atNode⟩ := regular
  obtain ⟨positiveOrNatural, notZeroToZero⟩ := (atNode a b atBase atExponent).2 rfl
  have natural := positiveOrNatural.imp_right And.right
  have optimizedValue {n : Expr α} (optimized : rhs.optimize = .ok n) :=
    optimized_value exact built constant optimized regularRight atExponent
  refine ⟨b * a ^ (b - 1) * slope, ?_, ?_⟩
  · have same : (Expr.binary .pow lhs rhs).asFunction toReal functions others v = fun y =>
        (lhs.asFunction toReal functions others v y).bind fun p => power p b := by
      funext y
      have fixed := (constant_as_function constant y x).trans atExponent
      show (lhs.asFunction toReal functions others v y).bind (fun p =>
        (rhs.asFunction toReal functions others v y).bind fun q => power p q) = _
      rw [fixed]
      rfl
    rw [same]
    exact base.power_constant atBase natural notZeroToZero
  · intro derivative derives
    cases derives with
    | powerOfZero _ optimized zero =>
        have exponentZero : b = 0 := by
          have sharp : Sharp (real toReal functions (realNames others v x)) Eq Scalar.tolerance :=
            fun _ _ near => exact.near near
          rw [sharp.value_of_is_value zero (optimizedValue optimized)]
          simp [Reading.whole, exact.of_nat]
        rw [whole_as_function exact 0, exponentZero]
        simp
    | power _ optimized _ first =>
        have lowered := value_difference (optimizedValue optimized) (value_whole exact 1)
        rw [Nat.cast_one] at lowered
        have lowerPower := value_power atBase lowered (power_lowered natural notZeroToZero)
        exact value_product (value_product (optimizedValue optimized) lowerPower)
          (valueLeft _ first)
    | exponential varying => cases constant.symm.trans varying
    | generalPower varying => cases constant.symm.trans varying

theorem differentiates_power_varying (varying : rhs.isConstant v = false)
    (regular : (Expr.binary .pow lhs rhs).Regular (real toReal functions (realNames others v x))
      v) : (Expr.binary .pow lhs rhs).DifferentiatesAt toReal functions others v x := by
  obtain ⟨slopeLeft, hasLeft, valueLeft⟩ := left
  obtain ⟨slopeRight, hasRight, valueRight⟩ := right
  obtain ⟨a, atLeft⟩ := hasLeft.value
  obtain ⟨b, atRight⟩ := hasRight.value
  have positive : 0 < a := by
    rcases ((regular.2.2 a b atLeft atRight).2 rfl).1 with positive | ⟨constant, -⟩
    · exact positive
    · cases constant.symm.trans varying
  have power := value_power atLeft atRight (power_some.2 ⟨.inl positive, rfl⟩)
  have logarithm := value_ln atLeft positive
  refine ⟨_, hasLeft.power hasRight atLeft atRight positive, ?_⟩
  intro derivative derives
  cases derives with
  | powerOfZero constant => cases constant.symm.trans varying
  | power constant => cases constant.symm.trans varying
  | exponential _ constant second =>
      have still : slopeLeft = 0 := hasLeft.unique (constant_slope constant atLeft)
      have written := value_product (value_product power logarithm) (valueRight _ second)
      refine written.trans (congrArg some ?_)
      rw [still]
      ring
  | generalPower _ _ first second =>
      have scaled := value_quotient (value_product (valueLeft _ first) atRight) atLeft positive.ne'
      have written := value_product power
        (value_sum scaled (value_product (valueRight _ second) logarithm))
      refine written.trans (congrArg some ?_)
      rw [Real.rpow_sub_one positive.ne']
      field_simp

end

/-- Every node of a regular tree is differentiated correctly, and so is the argument
of the call below its markers. -/
theorem differentiates_of_regular (exact : ExactNumbers toReal)
    (smooth : ∀ name, ContDiff ℝ ∞ (functions name)) {tree : Expr α} (built : tree.Built)
    (marks : tree.Marks (NamedFunction.ofName? · = none))
    (regular : tree.Regular (real toReal functions (realNames others v x)) v) :
    tree.DifferentiatesAt toReal functions others v x ∧
      ∀ name arg, tree.underMarkers = .call name arg →
        arg.DifferentiatesAt toReal functions others v x := by
  induction tree with
  | missing => exact absurd built Expr.built_missing
  | num value => exact ⟨differentiates_number exact value, nofun⟩
  | var name => exact ⟨differentiates_variable exact name, nofun⟩
  | binary op lhs rhs left right =>
      refine ⟨?_, nofun⟩
      obtain ⟨known, builtLeft, builtRight⟩ := (Expr.built_binary _ _ _).1 built
      have first := (left builtLeft marks.1 regular.1).1
      have second := (right builtRight marks.2 regular.2.1).1
      cases op with
      | add => exact differentiates_sum first second
      | sub => exact differentiates_difference first second
      | mul => exact differentiates_product first second
      | div =>
          refine differentiates_quotient first second exact fun b atRight => ?_
          obtain ⟨_, hasLeft, -⟩ := first
          obtain ⟨a, atLeft⟩ := hasLeft.value
          exact (regular.2.2 a b atLeft atRight).1 rfl
      | pow =>
          cases constant : rhs.isConstant v with
          | true =>
              exact differentiates_power_constant first second exact builtRight constant regular
          | false => exact differentiates_power_varying first second constant regular
      | other symbol => cases known
  | signed op operand inner =>
      refine ⟨?_, nofun⟩
      obtain ⟨known, builtInner⟩ := (Expr.built_signed _ _).1 built
      exact differentiates_sign known (inner builtInner marks regular).1
  | marked op operand inner =>
      obtain ⟨known, builtInner⟩ := (Expr.built_marked _ _).1 built
      obtain ⟨⟨name, arg, under, nameless⟩, marksInner⟩ := marks
      cases op with
      | other symbol => cases known
      | prime =>
          have argument := (inner builtInner marksInner regular).2
          exact ⟨differentiates_marked (smooth name) nameless under (argument name arg under),
            argument⟩
  | call name arg inner =>
      have argument := (inner ((Expr.built_call _ _).1 built).2 marks regular.1).1
      constructor
      · cases named : NamedFunction.ofName? name with
        | some f =>
            exact differentiates_known exact named (fun a => regular.2 f a named) argument
        | none => exact differentiates_unknown (smooth name) named argument
      · intro name' arg' under
        cases under
        exact argument

/-- Differentiation is correct: where a built tree is regular, the derivative that is
computed has a value, and the value is the derivative of the tree as a function of the
variable. The other case is an exponent so deep that its sweeps run out. -/
theorem raw_derivative_correct (exact : ExactNumbers toReal)
    (smooth : ∀ name, ContDiff ℝ ∞ (functions name)) {tree : Expr α} (built : tree.Built)
    (marks : tree.Marks (NamedFunction.ofName? · = none))
    (regular : tree.Regular (real toReal functions (realNames others v x)) v) :
    (∃ derivative slope, tree.rawDerivative v = .ok derivative ∧
      HasSlope (tree.asFunction toReal functions others v) slope x ∧
      derivative.asFunction toReal functions others v x = some slope) ∨
    (sweepLimit ≤ tree.depth ∧
      tree.rawDerivative v = .error (.simplification (.unsettled sweepLimit))) := by
  rcases Expr.raw_derivative_of_built built marks with ⟨derivative, done, derives⟩ | unsettled
  · obtain ⟨slope, hasSlope, valued⟩ :=
      (differentiates_of_regular exact smooth built marks regular).1
    exact .inl ⟨derivative, slope, done, hasSlope, valued derivative derives⟩
  · exact .inr unsettled

/-- The derivative of `x^2 + f(x)'` exists at 3 for the exponential function as `f`. -/
theorem raw_derivative_correct_of_sum :
    ∃ derivative slope,
      (Expr.binary .add (.binary .pow (.var "x") (.num (2 : ℝ)))
        (.marked .prime (.call "f" (.var "x")))).rawDerivative "x" = .ok derivative ∧
      HasSlope ((Expr.binary .add (.binary .pow (.var "x") (.num (2 : ℝ)))
        (.marked .prime (.call "f" (.var "x")))).asFunction id (fun _ => Real.exp) 0 "x") slope 3 ∧
      derivative.asFunction id (fun _ => Real.exp) 0 "x" 3 = some slope := by
  refine (raw_derivative_correct Exact.numbers ?_ ?_ ?_ ?_).resolve_right
    fun unsettled => ?_
  · exact fun _ => Real.contDiff_exp
  · simp [BinaryOp.isKnown, MarkOp.isKnown]
  · exact ⟨⟨trivial, trivial⟩, ⟨"f", _, rfl, by decide⟩, trivial⟩
  · refine ⟨⟨trivial, trivial, ?_⟩, ⟨trivial, ?_⟩, ?_⟩
    · intro a b atBase atExponent
      have base : 3 = a := by simpa [value_var, realNames] using atBase
      simp [← base]
    · intro f a known
      have unknown : NamedFunction.ofName? "f" = none := by decide
      rw [unknown] at known
      cases known
    · intro a b atLeft atRight
      constructor
      · intro divides
        cases divides
      · intro raises
        cases raises
  · have deep := unsettled.1
    simp [Expr.depth_eq_height, Expr.height, sweepLimit] at deep

end

end Fluxion
