import Fluxion.Proofs.Meaning.Exact
import Fluxion.Proofs.Outcome
import Fluxion.Simplify.Fold

/-!
What simplification relies on of the arithmetic. Equations are asked for only where
they hold of finite numbers, and only up to the sign of a zero; the laws that say
where there is no result at all keep the other operands out. A result that is not a
finite number is no result here, so these laws are those of doubles.
-/

namespace Fluxion

namespace Scalar

variable {α : Type} [Scalar α]

/-- Equal, but perhaps for the sign of a zero. -/
def Alike (a b : α) : Prop := a = b ∨ same a b = true

end Scalar

open Scalar

structure Identities (α : Type) [Scalar α] : Prop where
  same_symm {a b : α} : same a b = true → same b a = true
  same_trans {a b c : α} : same a b = true → same b c = true → same a c = true
  -- No operation tells the two zeros apart, except in the sign of a zero result.
  fold_alike {op : BinaryOp} {a a' b b' c : α} : Alike a a' → Alike b b' →
    op.fold a b = .ok (some c) → ∃ c', op.fold a' b' = .ok (some c') ∧ Alike c' c
  neg_alike {a a' : α} : Alike a a' → Alike (neg a) (neg a')
  apply_alike {f : NamedFunction} {a a' b : α} : Alike a a' → apply f a = some b →
    ∃ b', apply f a' = some b' ∧ Alike b' b
  -- Where there is no finite result.
  add_finite {a b c : α} : add a b = some c → isFinite a = true ∧ isFinite b = true
  sub_finite {a b c : α} : sub a b = some c → isFinite a = true ∧ isFinite b = true
  mul_finite {a b c : α} : mul a b = some c → isFinite a = true ∧ isFinite b = true
  div_domain {a b c : α} : div a b = some c →
    isFinite a = true ∧ same b b = true ∧ same b (ofNat 0) = false
  zero_pow_domain {a b : α} : pow (ofNat 0) a = some b → isNonNegative a = true
  -- The identities themselves.
  neg_neg (a : α) : Alike (neg (neg a)) a
  zero_add {a b : α} : isFinite a = true → add (ofNat 0) a = some b → Alike a b
  add_zero {a b : α} : isFinite a = true → add a (ofNat 0) = some b → Alike a b
  add_self {a b : α} : isFinite a = true → add a a = some b →
    ∃ c, mul (ofNat 2) a = some c ∧ Alike c b
  sub_zero {a b : α} : isFinite a = true → sub a (ofNat 0) = some b → Alike a b
  zero_sub {a b : α} : isFinite a = true → sub (ofNat 0) a = some b → Alike (neg a) b
  sub_self {a b : α} : isFinite a = true → sub a a = some b → Alike (ofNat 0) b
  one_mul {a b : α} : isFinite a = true → mul (ofNat 1) a = some b → Alike a b
  mul_one {a b : α} : isFinite a = true → mul a (ofNat 1) = some b → Alike a b
  zero_mul {a b : α} : isFinite a = true → mul (ofNat 0) a = some b → Alike (ofNat 0) b
  mul_zero {a b : α} : isFinite a = true → mul a (ofNat 0) = some b → Alike (ofNat 0) b
  zero_div {a b : α} : same a a = true → same a (ofNat 0) = false →
    div (ofNat 0) a = some b → Alike (ofNat 0) b
  div_one {a b : α} : div a (ofNat 1) = some b → Alike a b
  div_self {a b : α} : isFinite a = true → same a (ofNat 0) = false → div a a = some b →
    Alike (ofNat 1) b
  zero_pow {a b : α} : isNonNegative a = true → same a (ofNat 0) = false →
    pow (ofNat 0) a = some b → Alike (ofNat 0) b
  one_pow {a b : α} : pow (ofNat 1) a = some b → Alike (ofNat 1) b
  pow_zero {a b : α} : pow a (ofNat 0) = some b → Alike (ofNat 1) b
  pow_one {a b : α} : pow a (ofNat 1) = some b → Alike a b
  sin_zero {b : α} : apply .sin (ofNat 0) = some b → Alike (ofNat 0) b
  cos_zero {b : α} : apply .cos (ofNat 0) = some b → Alike (ofNat 1) b
  tg_zero {b : α} : apply .tg (ofNat 0) = some b → Alike (ofNat 0) b
  ln_one {b : α} : apply .ln (ofNat 1) = some b → Alike (ofNat 0) b
  ln_euler {b : α} : apply .ln (euler : α) = some b → Alike (ofNat 1) b

/-- Where arithmetic has results: they are finite, a neutral operand leaves a finite number
one, and a sum of equal numbers has one if their double has. -/
structure Results (α : Type) [Scalar α] : Prop where
  whole_finite {n : Nat} : n ≤ 2 → isFinite (ofNat n : α) = true
  neg_finite {a : α} : isFinite a = true → isFinite (neg a) = true
  fold_finite {op : BinaryOp} {a b c : α} : op.fold a b = .ok (some c) → isFinite c = true
  zero_add {a : α} : isFinite a = true → ∃ b, add (ofNat 0) a = some b
  add_zero {a : α} : isFinite a = true → ∃ b, add a (ofNat 0) = some b
  sub_zero {a : α} : isFinite a = true → ∃ b, sub a (ofNat 0) = some b
  zero_sub {a : α} : isFinite a = true → ∃ b, sub (ofNat 0) a = some b
  one_mul {a : α} : isFinite a = true → ∃ b, mul (ofNat 1) a = some b
  mul_one {a : α} : isFinite a = true → ∃ b, mul a (ofNat 1) = some b
  div_one {a : α} : isFinite a = true → ∃ b, div a (ofNat 1) = some b
  pow_one {a : α} : isFinite a = true → ∃ b, pow a (ofNat 1) = some b
  add_self {a b : α} : isFinite a = true → mul (ofNat 2) a = some b → ∃ c, add a a = some c

theorem Identities.alike_equivalence {α : Type} [Scalar α] (identities : Identities α) :
    Equivalence (@Alike α _) where
  refl a := .inl rfl
  symm close := by
    rcases close with rfl | same
    · exact .inl rfl
    · exact .inr (identities.same_symm same)
  trans first second := by
    rcases first with rfl | first
    · exact second
    · rcases second with rfl | second
      · exact .inr first
      · exact .inr (identities.same_trans first second)

namespace Exact

theorem alike_iff {a b : ℝ} : Alike a b ↔ a = b := by
  simp [Alike]

/-- Exact arithmetic satisfies every law of `Identities`. -/
theorem identities : Identities ℝ where
  same_symm same := same_real.2 (same_real.1 same).symm
  same_trans first second := same_real.2 ((same_real.1 first).trans (same_real.1 second))
  fold_alike left right result := by
    rw [alike_iff] at left right
    subst left right
    exact ⟨_, result, alike_iff.2 rfl⟩
  neg_alike close := by
    rw [alike_iff] at close ⊢
    rw [close]
  apply_alike close result := by
    rw [alike_iff] at close
    subst close
    exact ⟨_, result, alike_iff.2 rfl⟩
  add_finite _ := ⟨rfl, rfl⟩
  sub_finite _ := ⟨rfl, rfl⟩
  mul_finite _ := ⟨rfl, rfl⟩
  div_domain result := by
    have divisor := (divide_some.1 result).1
    exact ⟨rfl, same_real.2 rfl, by simpa [← Bool.not_eq_true] using divisor⟩
  zero_pow_domain result := by
    obtain ⟨defined, -⟩ := power_some.1 result
    simpa [PowerDefined] using defined
  neg_neg a := by simp [alike_iff]
  zero_add _ result := by simpa [alike_iff] using result
  add_zero _ result := by simpa [alike_iff] using result
  add_self _ result := by simpa [alike_iff, two_mul] using result
  sub_zero _ result := by simpa [alike_iff] using result
  zero_sub _ result := by simpa [alike_iff] using result
  sub_self _ result := by simpa [alike_iff] using result
  one_mul _ result := by simpa [alike_iff] using result
  mul_one _ result := by simpa [alike_iff] using result
  zero_mul _ result := by simpa [alike_iff] using result
  mul_zero _ result := by simpa [alike_iff] using result
  zero_div _ _ result := by
    obtain ⟨-, rfl⟩ := divide_some.1 result
    simp [alike_iff]
  div_one result := by
    obtain ⟨-, rfl⟩ := divide_some.1 result
    simp [alike_iff]
  div_self _ _ result := by
    obtain ⟨nonzero, rfl⟩ := divide_some.1 result
    simp [alike_iff, nonzero]
  zero_pow := by
    intro a b _ nonzero result
    obtain ⟨-, rfl⟩ := power_some.1 result
    have nonzero : a ≠ 0 := by simpa [← Bool.not_eq_true] using nonzero
    simp [alike_iff, nonzero]
  one_pow result := by
    obtain ⟨-, rfl⟩ := power_some.1 result
    simp [alike_iff]
  pow_zero result := by
    obtain ⟨-, rfl⟩ := power_some.1 result
    simp [alike_iff]
  pow_one result := by
    obtain ⟨-, rfl⟩ := power_some.1 result
    simp [alike_iff]
  sin_zero result := by simpa [alike_iff, apply] using result
  cos_zero result := by simpa [alike_iff, apply] using result
  tg_zero result := by simpa [alike_iff, apply] using result
  ln_one result := by simpa [alike_iff, apply] using result
  ln_euler result := by simpa [alike_iff, apply, Real.exp_pos] using result

theorem results : Results ℝ where
  whole_finite _ := rfl
  neg_finite _ := rfl
  fold_finite _ := rfl
  zero_add _ := ⟨_, rfl⟩
  add_zero _ := ⟨_, rfl⟩
  sub_zero _ := ⟨_, rfl⟩
  zero_sub _ := ⟨_, rfl⟩
  one_mul _ := ⟨_, rfl⟩
  mul_one _ := ⟨_, rfl⟩
  div_one _ := ⟨_, divide_some.2 ⟨by simp, rfl⟩⟩
  pow_one {a} _ := ⟨_, power_some.2 ⟨power_defined_of_natural a 1, rfl⟩⟩
  add_self _ _ := ⟨_, rfl⟩

end Exact

end Fluxion
