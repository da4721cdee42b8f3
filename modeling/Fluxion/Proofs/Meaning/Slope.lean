import Mathlib

/-!
Derivatives of partial real functions. A partial function has a slope at a point
where it is, on a whole neighbourhood, a function with that derivative. The chain
rule and the rule for two arguments reduce every expression to total functions.
-/

namespace Fluxion

open Filter Topology

def HasSlope (g : ℝ → Option ℝ) (slope x : ℝ) : Prop :=
  ∃ f : ℝ → ℝ, (∀ᶠ y in 𝓝 x, g y = some (f y)) ∧ HasDerivAt f slope x

namespace HasSlope

variable {g h : ℝ → Option ℝ} {f : ℝ → ℝ} {slope slope' x a b : ℝ}

theorem of_total (derivative : HasDerivAt f slope x) : HasSlope (fun y => some (f y)) slope x :=
  ⟨f, Eventually.of_forall fun _ => rfl, derivative⟩

theorem of_eventually (near : ∀ᶠ y in 𝓝 x, g y = some (f y)) (derivative : HasDerivAt f slope x) :
    HasSlope g slope x :=
  ⟨f, near, derivative⟩

theorem of_constant (constant : ∀ y, g y = some a) : HasSlope g 0 x :=
  ⟨fun _ => a, Eventually.of_forall constant, hasDerivAt_const x a⟩

theorem value (hasSlope : HasSlope g slope x) : ∃ a, g x = some a := by
  obtain ⟨f, near, -⟩ := hasSlope
  exact ⟨f x, near.self_of_nhds⟩

theorem unique (first : HasSlope g slope x) (second : HasSlope g slope' x) : slope = slope' := by
  obtain ⟨f, near, derivative⟩ := first
  obtain ⟨k, near', derivative'⟩ := second
  have same : f =ᶠ[𝓝 x] k := by
    filter_upwards [near, near'] with y inside inside'
    exact Option.some.inj (inside.symm.trans inside')
  exact derivative.unique (derivative'.congr_of_eventuallyEq same)

/-- The chain rule. -/
theorem bind (inner : HasSlope g slope x) (atPoint : g x = some a)
    (outer : HasSlope h slope' a) : HasSlope (fun y => (g y).bind h) (slope' * slope) x := by
  obtain ⟨f, near, derivative⟩ := inner
  obtain ⟨k, nearOuter, derivativeOuter⟩ := outer
  have same : f x = a := Option.some.inj (near.self_of_nhds.symm.trans atPoint)
  subst same
  have along : ∀ᶠ y in 𝓝 x, h (f y) = some (k (f y)) :=
    derivative.continuousAt.eventually nearOuter
  refine ⟨fun y => k (f y), ?_, derivativeOuter.comp x derivative⟩
  filter_upwards [near, along] with y inside outside
  rw [inside]
  exact outside

/-- Two arguments with slopes, joined by an operation that has one wherever its
arguments are functions with these derivatives. -/
theorem pair (left : HasSlope g slope x) (right : HasSlope h slope' x) (atLeft : g x = some a)
    (atRight : h x = some b) {operation : ℝ → ℝ → Option ℝ} {result : ℝ}
    (joined : ∀ f k : ℝ → ℝ, HasDerivAt f slope x → HasDerivAt k slope' x → f x = a → k x = b →
      HasSlope (fun y => operation (f y) (k y)) result x) :
    HasSlope (fun y => (g y).bind fun p => (h y).bind fun q => operation p q) result x := by
  obtain ⟨f, nearLeft, derivativeLeft⟩ := left
  obtain ⟨k, nearRight, derivativeRight⟩ := right
  have sameLeft : f x = a := Option.some.inj (nearLeft.self_of_nhds.symm.trans atLeft)
  have sameRight : k x = b := Option.some.inj (nearRight.self_of_nhds.symm.trans atRight)
  obtain ⟨total, near, derivative⟩ := joined f k derivativeLeft derivativeRight sameLeft sameRight
  refine ⟨total, ?_, derivative⟩
  filter_upwards [near, nearLeft, nearRight] with y together inLeft inRight
  rw [inLeft, inRight]
  exact together

end HasSlope

end Fluxion
