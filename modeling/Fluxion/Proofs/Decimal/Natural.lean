import Fluxion.Proofs.Decimal.Zero
import Fluxion.Proofs.Scalar.Natural

/-!
Natural numbers among the doubles. Up to 53 bits their differences from one are formed without
rounding, and such a difference is a zero or beyond every tolerance.
-/

namespace Fluxion.Decimal

open Float.Model UnpackedFloat Scalar

section

variable {significand : Nat} {exponent : Int}

/-- On the scale of one, the significand of a number of up to 53 bits is the number itself. -/
theorem raise_to_one {n : Nat} (canonical : Canonical significand exponent)
    (amounts : Amounts significand exponent n) (small : n < 2 ^ 53) :
    ∃ shift : Nat, significand * 2 ^ shift = n * 2 ^ 52 ∧ exponent - shift = -52 := by
  have positive := whole_positive canonical amounts
  obtain ⟨up, scale, rfl⟩ | ⟨down, scale, rfl⟩ := amounts
  · cases up with
    | zero => exact ⟨52, by simp, by omega⟩
    | succ up =>
        -- A full significand above the scale of one takes more than 53 bits.
        have precise : 2 ^ 52 ≤ significand := canonical.precise.resolve_right (by omega)
        have large : 2 ^ 52 * 2 ^ 1 ≤ significand * 2 ^ (up + 1) :=
          Nat.mul_le_mul precise (Nat.pow_le_pow_right (by decide) (Nat.le_add_left 1 up))
        omega
  · have narrow : 2 ^ down < 2 ^ 53 :=
      Nat.lt_of_le_of_lt (Nat.le_mul_of_pos_left _ positive) canonical.bounded
    have low : down < 53 := (Nat.pow_lt_pow_iff_right (by decide)).1 narrow
    refine ⟨52 - down, ?_, by omega⟩
    rw [Nat.mul_assoc, ← Nat.pow_add, Nat.add_sub_cancel' (Nat.le_of_lt_succ low)]

theorem normalize_whole {k : Int} (nonzero : k ≠ 0) (small : k.natAbs < 2 ^ 53) :
    ∃ significand exponent, ∃ canonical : Canonical significand exponent,
      Amounts significand exponent k.natAbs ∧ -52 ≤ exponent ∧
        UnpackedFloat.normalize Format.binary64 (k * (2 ^ 52 : Nat)) (-52) .positive =
          .finite (signOf (k < 0)) significand exponent canonical.positive := by
  obtain ⟨significand, exponent, canonical, amounts⟩ :=
    canonical_of_small (Int.natAbs_pos.2 nonzero) small
  obtain ⟨shift, raised, scale⟩ := raise_to_one canonical amounts small
  have rounded := round_raised canonical.aligned (signOf (k < 0)) shift
  rw [raised, scale] at rounded
  refine ⟨significand, exponent, canonical, amounts, by omega, ?_⟩
  have scaled : (k * (2 ^ 52 : Nat)).natAbs = k.natAbs * 2 ^ 52 := Int.natAbs_mul _ _
  have sign : (k * (2 ^ 52 : Nat) < 0) = (k < 0) := by
    rw [eq_iff_iff]
    omega
  rw [normalize_nonzero (by omega), scaled, ← rounded]
  simp only [sign]

/-- Differences from one are formed on the scale of one. -/
theorem difference_from_one {n : Nat} (canonical : Canonical significand exponent)
    (amounts : Amounts significand exponent n) (small : n < 2 ^ 53) :
    UnpackedFloat.sub Format.binary64 (.finite .positive significand exponent canonical.positive)
        (.finite .positive (2 ^ 52) (-52) (by decide)) =
      UnpackedFloat.normalize Format.binary64 (((n : Int) - 1) * (2 ^ 52 : Nat)) (-52) .positive ∧
    UnpackedFloat.sub Format.binary64 (.finite .positive (2 ^ 52) (-52) (by decide))
        (.finite .positive significand exponent canonical.positive) =
      UnpackedFloat.normalize Format.binary64 ((1 - (n : Int)) * (2 ^ 52 : Nat)) (-52)
        .positive := by
  obtain ⟨shift, raised, scale⟩ := raise_to_one canonical amounts small
  have lower : min exponent (-52) = -52 := by omega
  have lift : (exponent - -52).toNat = shift := by omega
  have stays : (-52 - -52 : Int).toNat = 0 := rfl
  rw [sub_finite_finite, sub_finite_finite, Int.min_comm (-52) exponent, lower, lift, stays, raised]
  simp only [Sign.apply, Nat.pow_zero, Nat.mul_one, Int.natCast_mul, Int.sub_mul, Int.one_mul,
    and_self]

end

variable {x : Float} {n : Nat}

theorem unpack_of_natural (natural : IsNatural x n) :
    (n = 0 ∧ ∃ sign, x.toModel.unpack = .zero sign) ∨
      ∃ significand exponent, ∃ canonical : Canonical significand exponent,
        Amounts significand exponent n ∧
          x.toModel.unpack = .finite .positive significand exponent canonical.positive := by
  rcases unpack_of_whole natural.1 with
    ⟨zero, unpacked⟩ | ⟨significand, exponent, canonical, amounts, unpacked⟩
  · exact .inl ⟨Int.natCast_eq_zero.1 zero, unpacked⟩
  · rw [decide_eq_false (Int.not_lt.2 (Int.natCast_nonneg n))] at unpacked
    exact .inr ⟨significand, exponent, canonical, amounts, unpacked⟩

theorem natural_pred (natural : IsNatural x (n + 1)) :
    ∃ y, sub x (ofNat 1) = some y ∧ IsNatural y n := by
  obtain ⟨none, -⟩ | ⟨significand, exponent, canonical, amounts, unpacked⟩ :=
    unpack_of_natural natural
  · cases none
  have model : (x - Float.ofNat 1).toModel = Float.Model.pack
      (UnpackedFloat.normalize Format.binary64 ((n : Int) * (2 ^ 52 : Nat)) (-52) .positive) := by
    have difference := (difference_from_one canonical amounts natural.2).1
    rw [Int.natCast_add, Int.natCast_one, Int.add_sub_cancel] at difference
    rw [← difference, ← one_unpack, ← unpacked]
    rfl
  have small : n < 2 ^ 53 := Nat.lt_of_succ_lt natural.2
  have whole : (x - Float.ofNat 1).toModel.unpack.isFinite = true ∧
      toInt? (x - Float.ofNat 1) = some (n : Int) := by
    by_cases zero : n = 0
    · subst zero
      have unpacked' : (x - Float.ofNat 1).toModel.unpack = .zero .positive := by
        rw [model]
        rfl
      exact ⟨by rw [unpacked']; rfl, to_int_of_zero unpacked'⟩
    · obtain ⟨significand', exponent', canonical', amounts', -, normalized⟩ :=
        normalize_whole (k := n) (by omega) (by omega)
      rw [decide_eq_false (Int.not_lt.2 (Int.natCast_nonneg n))] at normalized
      have unpacked' : (x - Float.ofNat 1).toModel.unpack =
          .finite (signOf false) significand' exponent' canonical'.positive := by
        rw [model, normalized, unpack_of_model canonical']
      exact ⟨by rw [unpacked']; rfl, to_int_of_finite canonical' amounts' unpacked'⟩
  refine ⟨x - Float.ofNat 1, ?_, whole.2, small⟩
  exact if_pos whole.1

theorem natural_near_one (natural : IsNatural x n)
    (near : near (tolerance : Float) x (ofNat 1) = true) : n = 1 := by
  obtain ⟨rfl, zero⟩ | ⟨significand, exponent, canonical, amounts, unpacked⟩ :=
    unpack_of_natural natural
  · rw [zeros.not_near_one (is_zero_iff.2 zero)] at near
    cases near
  · by_contra other
    have small := natural.2
    obtain ⟨significand', exponent', canonical', -, scale, normalized⟩ :=
      normalize_whole (k := 1 - (n : Int)) (by omega) (by omega)
    rw [near_unpack, unpacked, one_unpack, (difference_from_one canonical amounts small).2,
      normalized, not_below_tolerance canonical'.aligned (by omega)] at near
    cases near

theorem natural_near_zero (natural : IsNatural x n)
    (near : near (tolerance : Float) x (ofNat 0) = true) : n = 0 := by
  obtain ⟨rfl, -⟩ | ⟨significand, exponent, canonical, amounts, unpacked⟩ :=
    unpack_of_natural natural
  · rfl
  · obtain ⟨shift, -, scale⟩ := raise_to_one canonical amounts natural.2
    have difference : UnpackedFloat.sub Format.binary64 (.zero .positive)
        (.finite .positive significand exponent canonical.positive) =
          .finite .negative significand exponent canonical.positive := rfl
    rw [near_unpack, unpacked, zero_unpack, difference,
      not_below_tolerance canonical.aligned (by omega)] at near
    cases near

theorem naturals : Naturals (tolerance : Float) where
  zero := ⟨to_int_of_zero zero_unpack, by decide⟩
  one := ⟨by decide +kernel, by decide⟩
  is_zero natural := by
    obtain ⟨-, zero⟩ | ⟨_, _, canonical, amounts, -⟩ := unpack_of_natural natural
    · exact is_zero_iff.2 zero
    · exact absurd (whole_positive canonical amounts) (Nat.lt_irrefl 0)
  near_zero := natural_near_zero
  near_one := natural_near_one
  same_one natural same := by
    have one : toInt? (ofNat 1 : Float) = some 1 := by decide +kernel
    have whole := to_int_of_same same one
    rw [natural.1] at whole
    exact Int.natCast_inj.1 (Option.some.inj whole)
  pred := natural_pred

end Fluxion.Decimal
