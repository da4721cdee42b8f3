import Fluxion.Proofs.Decimal.Natural
import Fluxion.Proofs.Scalar.Identities

/-!
The arithmetic of the doubles under simplification. The four operations do not tell the two
zeros apart, except in the sign of a zero; zero and one are neutral without rounding, and twice
a number is the sum of two. Main statements: every law of sums, differences, products and
quotients that simplification relies on is one of the doubles, so that only those of the power
and of the named functions are left to the library that computes them.
-/

namespace Fluxion.Decimal

open Scalar

/-- What is left to assume of the power and of the named functions. -/
structure Elementary : Prop where
  pow_alike {a a' b b' c : Float} : Alike a a' → Alike b b' → pow a b = some c →
    ∃ c', pow a' b' = some c' ∧ Alike c' c
  apply_alike {f : NamedFunction} {a a' b : Float} : Alike a a' → apply f a = some b →
    ∃ b', apply f a' = some b' ∧ Alike b' b
  zero_pow_domain {a b : Float} : pow (ofNat 0) a = some b → isNonNegative a = true
  zero_pow {a b : Float} : isNonNegative a = true → same a (ofNat 0) = false →
    pow (ofNat 0) a = some b → Alike (ofNat 0) b
  one_pow {a b : Float} : pow (ofNat 1) a = some b → Alike (ofNat 1) b
  pow_zero {a b : Float} : pow a (ofNat 0) = some b → Alike (ofNat 1) b
  pow_one {a b : Float} : pow a (ofNat 1) = some b → Alike a b
  pow_one_defined {a : Float} : isFinite a = true → ∃ b, pow a (ofNat 1) = some b
  sin_zero {b : Float} : apply .sin (ofNat 0) = some b → Alike (ofNat 0) b
  cos_zero {b : Float} : apply .cos (ofNat 0) = some b → Alike (ofNat 1) b
  tg_zero {b : Float} : apply .tg (ofNat 0) = some b → Alike (ofNat 0) b
  ln_one {b : Float} : apply .ln (ofNat 1) = some b → Alike (ofNat 0) b
  ln_euler {b : Float} : apply .ln (euler : Float) = some b → Alike (ofNat 1) b

open Float.Model UnpackedFloat

def outcome (u : UnpackedFloat) : Option Float := Double.finite? ⟨Float.Model.pack u⟩

section

variable {x y c : Float} {u v : UnpackedFloat}

theorem alike_iff_form : Alike x y ↔ AlikeForm x.toModel.unpack y.toModel.unpack := by
  constructor
  · rintro (rfl | equal)
    · exact .inl rfl
    · exact (same_iff_form.1 equal).1
  · rintro (form | ⟨⟨sign, zero⟩, zero'⟩)
    · exact .inl (eq_of_form form)
    · exact .inr (same_iff_form.2 ⟨.inr ⟨⟨sign, zero⟩, zero'⟩, by simp [zero]⟩)

inductive FiniteForm : UnpackedFloat → Prop
  | zero (sign : Sign) : FiniteForm (.zero sign)
  | nonzero (sign : Sign) {significand : Nat} {exponent : Int}
      (canonical : Canonical significand exponent) :
      FiniteForm (.finite sign significand exponent canonical.positive)

theorem finite_form (finite : x.toModel.unpack.isFinite = true) : FiniteForm x.toModel.unpack := by
  rcases unpack_of_finite finite with ⟨sign, zero⟩ | ⟨sign, _, _, canonical, unpacked⟩
  · rw [zero]
    exact .zero sign
  · rw [unpacked]
    exact .nonzero sign canonical

theorem FiniteForm.repacked (form : FiniteForm u) : (Float.Model.pack u).unpack = u := by
  cases form with
  | zero sign => exact unpack_pack_zero sign
  | nonzero sign canonical => exact unpack_of_model canonical sign

theorem FiniteForm.finite (form : FiniteForm u) : u.isFinite = true := by
  cases form with
  | zero | nonzero => rfl

theorem FiniteForm.neg (form : FiniteForm u) : FiniteForm u.neg := by
  cases form with
  | zero sign => exact .zero (-sign)
  | nonzero sign canonical => exact .nonzero (-sign) canonical

theorem neg_form (x : Float) : (neg x).toModel.unpack = x.toModel.unpack.neg := by
  show (Float.Model.pack x.toModel.unpack.neg).unpack = _
  cases finite : x.toModel.unpack.isFinite with
  | true => exact (finite_form finite).neg.repacked
  | false =>
      cases unpacked : x.toModel.unpack with
      | notANumber => rfl
      | infinity sign => cases sign <;> rfl
      | zero | finite =>
          rw [unpacked] at finite
          cases finite

theorem neg_neg_eq (x : Float) : neg (neg x) = x := by
  apply eq_of_form
  rw [neg_form, neg_form]
  cases x.toModel.unpack with
  | notANumber => rfl
  | infinity sign | zero sign | finite sign => cases sign <;> rfl

theorem outcome_some : outcome u = some c ↔
    c.toModel = Float.Model.pack u ∧ c.toModel.unpack.isFinite = true := by
  unfold outcome Double.finite?
  split
  · rename_i finite
    constructor
    · intro same
      cases same
      exact ⟨rfl, finite⟩
    · rintro ⟨model, -⟩
      rw [← model]
  · rename_i infinite
    constructor
    · intro same
      cases same
    · rintro ⟨model, finite⟩
      rw [model] at finite
      exact absurd finite infinite

theorem outcome_alike (alike : AlikeForm u v) (defined : outcome u = some c) :
    ∃ c', outcome v = some c' ∧ Alike c' c := by
  rcases alike with rfl | ⟨⟨sign, rfl⟩, sign', rfl⟩
  · exact ⟨c, defined, .inl rfl⟩
  · obtain ⟨model, -⟩ := outcome_some.1 defined
    refine ⟨⟨Float.Model.pack (.zero sign')⟩, outcome_some.2 ⟨rfl, ?_⟩, alike_iff_form.2 ?_⟩
    · rw [unpack_pack_zero]
      rfl
    · rw [model, unpack_pack_zero, unpack_pack_zero]
      exact .zero _ _

/-- An outcome that is like a finite double is that double, or the other zero. -/
theorem outcome_of_form (finite : isFinite x = true) (alike : AlikeForm u x.toModel.unpack) :
    ∃ c, outcome u = some c ∧ Alike x c := by
  have finite : x.toModel.unpack.isFinite = true := finite
  have repacked := (finite_form finite).repacked
  have itself : outcome x.toModel.unpack = some ⟨Float.Model.pack x.toModel.unpack⟩ := by
    refine outcome_some.2 ⟨rfl, ?_⟩
    rw [repacked]
    exact finite
  obtain ⟨c, defined, close⟩ := outcome_alike alike.symm itself
  refine ⟨c, defined, ?_⟩
  rw [alike_iff_form] at close ⊢
  rw [repacked] at close
  exact close.symm

end

section

variable {u u' v v' : UnpackedFloat}

theorem operation_alike {operation : UnpackedFloat → UnpackedFloat → UnpackedFloat}
    (left : ∀ sign sign' v, AlikeForm (operation (.zero sign) v) (operation (.zero sign') v))
    (right : ∀ sign sign' u, AlikeForm (operation u (.zero sign)) (operation u (.zero sign')))
    (first : AlikeForm u u') (second : AlikeForm v v') :
    AlikeForm (operation u v) (operation u' v') := by
  have step : AlikeForm (operation u v) (operation u' v) := by
    rcases first with rfl | ⟨⟨sign, rfl⟩, sign', rfl⟩
    · exact .inl rfl
    · exact left sign sign' v
  refine step.trans ?_
  rcases second with rfl | ⟨⟨sign, rfl⟩, sign', rfl⟩
  · exact .inl rfl
  · exact right sign sign' u'

def Total (operation : UnpackedFloat → UnpackedFloat → UnpackedFloat) : Prop :=
  operation = UnpackedFloat.add Format.binary64 ∨ operation = UnpackedFloat.sub Format.binary64 ∨
    operation = UnpackedFloat.mul Format.binary64

variable {operation : UnpackedFloat → UnpackedFloat → UnpackedFloat}

theorem Total.alike (total : Total operation) : AlikeForm u u' → AlikeForm v v' →
    AlikeForm (operation u v) (operation u' v') := by
  apply operation_alike
  all_goals
    intro sign sign' other
    cases other with
    | zero sign'' =>
        rcases total with rfl | rfl | rfl <;> cases sign <;> cases sign' <;> cases sign'' <;>
          exact .zero _ _
    | finite =>
        rcases total with rfl | rfl | rfl
        · exact .inl rfl
        · exact .inl rfl
        · exact .zero _ _
    | notANumber | infinity => rcases total with rfl | rfl | rfl <;> exact .inl rfl

theorem Total.finite (total : Total operation) (finite : (operation u v).isFinite = true) :
    u.isFinite = true ∧ v.isFinite = true := by
  cases u with
  | notANumber => rcases total with rfl | rfl | rfl <;> cases finite
  | infinity sign =>
      cases v with
      | infinity sign' =>
          rcases total with rfl | rfl | rfl <;> cases sign <;> cases sign' <;> cases finite
      | notANumber | zero | finite => rcases total with rfl | rfl | rfl <;> cases finite
  | zero | finite =>
      cases v with
      | notANumber | infinity => rcases total with rfl | rfl | rfl <;> cases finite
      | zero | finite => exact ⟨rfl, rfl⟩

/-- A quotient by a zero is an infinity with the sign of the zero, if it is anything. -/
theorem div_alike (first : AlikeForm u u') :
    AlikeForm (UnpackedFloat.div Format.binary64 u v) (UnpackedFloat.div Format.binary64 u' v) := by
  rcases first with rfl | ⟨⟨sign, rfl⟩, sign', rfl⟩
  · exact .inl rfl
  · cases v with
    | infinity | finite => exact .zero _ _
    | notANumber | zero => exact .inl rfl

theorem div_finite (finite : (UnpackedFloat.div Format.binary64 u v).isFinite = true) :
    u.isFinite = true ∧ v ≠ .notANumber ∧ ∀ sign, v ≠ .zero sign := by
  cases u with
  | notANumber => cases finite
  | infinity => cases v <;> cases finite
  | zero | finite =>
      cases v with
      | notANumber | zero => cases finite
      | infinity | finite => exact ⟨rfl, nofun, nofun⟩

theorem neg_form_alike (alike : AlikeForm u v) : AlikeForm u.neg v.neg := by
  rcases alike with rfl | ⟨⟨sign, rfl⟩, sign', rfl⟩
  · exact .inl rfl
  · exact .zero _ _

/-- Zero is neutral in sums and differences, in front of a difference up to the sign. -/
theorem zero_neutral (u : UnpackedFloat) :
    AlikeForm (UnpackedFloat.add Format.binary64 (.zero .positive) u) u ∧
      AlikeForm (UnpackedFloat.add Format.binary64 u (.zero .positive)) u ∧
      AlikeForm (UnpackedFloat.sub Format.binary64 u (.zero .positive)) u ∧
      AlikeForm (UnpackedFloat.sub Format.binary64 (.zero .positive) u) u.neg := by
  cases u with
  | zero sign => cases sign <;> exact ⟨.zero _ _, .zero _ _, .zero _ _, .zero _ _⟩
  | notANumber | infinity | finite => exact ⟨.inl rfl, .inl rfl, .inl rfl, .inl rfl⟩

end

section

variable {significand : Nat} {exponent : Int}

/-- A division that goes out on the scale it aims at is not rounded. -/
theorem div_exact {sign sign' : Sign} {significand' quotient shift : Nat} {exponent' : Int}
    {positive : 0 < significand} {positive' : 0 < significand'}
    (aims : min (exponent - exponent') (Format.binary64.targetExponent
      (totalExponent significand exponent - totalExponent significand' exponent')) =
        exponent - exponent' - shift)
    (divides : significand * 2 ^ shift = quotient * significand') :
    UnpackedFloat.div Format.binary64 (.finite sign significand exponent positive)
      (.finite sign' significand' exponent' positive') =
        roundWithAccuracy Format.binary64 (sign / sign') quotient
          (exponent - exponent' - shift) .exact := by
  have amount : (exponent - exponent' - (exponent - exponent' - shift)).toNat = shift := by omega
  have whole : accuracyOfFraction 0 significand' = .exact := if_pos rfl
  simp only [UnpackedFloat.div, divCore, aims, amount, Nat.shiftLeft_eq, divides,
    Nat.mul_div_cancel _ positive', Nat.mul_mod_left, whole]

theorem div_one_form (canonical : Canonical significand exponent) (sign : Sign) :
    UnpackedFloat.div Format.binary64 (.finite sign significand exponent canonical.positive)
      (.finite .positive (2 ^ 52) (-52) (by decide)) =
        .finite sign significand exponent canonical.positive := by
  obtain ⟨positive, bounded, least, most, precise⟩ := canonical
  have width : significand.log2 < 53 := (Nat.log2_lt (Nat.ne_of_gt positive)).2 bounded
  have one : totalExponent (2 ^ 52) (-52) = 1 := by
    rw [totalExponent, Nat.log2_two_pow]
    rfl
  -- Above the least exponent the quotient gets one bit more than it needs.
  obtain ⟨spare, aims⟩ : ∃ spare : Nat, min (exponent - -52) (Format.binary64.targetExponent
      (totalExponent significand exponent - totalExponent (2 ^ 52) (-52))) =
        exponent - -52 - ((52 + spare : Nat) : Int) := by
    rw [one, totalExponent]
    show ∃ spare : Nat, min (exponent - -52)
      (max ((significand.log2 : Int) + 1 + exponent - 1 - 53) (-1074)) = _
    rcases precise with full | rfl
    · have full : significand.log2 = 52 :=
        (Nat.log2_eq_iff (Nat.ne_of_gt positive)).2 ⟨full, bounded⟩
      rcases Int.lt_or_eq_of_le least with above | rfl
      · exact ⟨1, by omega⟩
      · exact ⟨0, by omega⟩
    · exact ⟨0, by omega⟩
  have divides : significand * 2 ^ (52 + spare) = significand * 2 ^ spare * 2 ^ 52 := by
    rw [Nat.pow_add, Nat.mul_assoc, Nat.mul_comm (2 ^ 52)]
  have signs : sign / Sign.positive = sign := by cases sign <;> rfl
  have scale : exponent - -52 - ((52 + spare : Nat) : Int) = exponent - spare := by omega
  have aligned : Aligned significand exponent := ⟨positive, bounded, least, precise⟩
  rw [div_exact aims divides, signs, scale]
  exact round_exact aligned sign spare

theorem div_self_form (positive : 0 < significand) (sign : Sign) :
    UnpackedFloat.div Format.binary64 (.finite sign significand exponent positive)
      (.finite sign significand exponent positive) =
        .finite .positive (2 ^ 52) (-52) (by decide) := by
  have aims : min (exponent - exponent) (Format.binary64.targetExponent
      (totalExponent significand exponent - totalExponent significand exponent)) =
        exponent - exponent - (53 : Nat) := by
    rw [Int.sub_self, Int.sub_self]
    rfl
  have aligned : Aligned (2 ^ 52) (-52) := ⟨by decide, by decide, by decide, .inl (Nat.le_refl _)⟩
  have signs : sign / sign = .positive := by cases sign <;> rfl
  rw [div_exact aims (Nat.mul_comm significand (2 ^ 53)), signs, Int.sub_self]
  exact round_exact aligned .positive 1

theorem sub_self_form (positive : 0 < significand) (sign : Sign) :
    UnpackedFloat.sub Format.binary64 (.finite sign significand exponent positive)
      (.finite sign significand exponent positive) = .zero .positive := by
  rw [sub_finite_finite, Int.sub_self, UnpackedFloat.normalize, Int.compare_eq_eq.2 rfl]

variable {u : UnpackedFloat}

theorem one_neutral (form : FiniteForm u) :
    AlikeForm (UnpackedFloat.mul Format.binary64 (ofNat 1 : Float).toModel.unpack u) u ∧
      AlikeForm (UnpackedFloat.mul Format.binary64 u (ofNat 1 : Float).toModel.unpack) u ∧
      AlikeForm (UnpackedFloat.div Format.binary64 u (ofNat 1 : Float).toModel.unpack) u := by
  rw [one_unpack]
  cases form with
  | zero sign => exact ⟨.zero _ _, .zero _ _, .zero _ _⟩
  | nonzero sign canonical =>
      have rounded := round_exact canonical.aligned sign 52
      have front : Sign.positive * sign = sign := by cases sign <;> rfl
      have behind : sign * Sign.positive = sign := by cases sign <;> rfl
      refine ⟨.inl ?_, .inl ?_, .inl (div_one_form canonical sign)⟩
      · rw [UnpackedFloat.mul, front, Nat.mul_comm, Int.add_comm]
        exact rounded
      · rw [UnpackedFloat.mul, behind]
        exact rounded

theorem twice_alike (form : FiniteForm u) :
    AlikeForm (UnpackedFloat.mul Format.binary64 (ofNat 2 : Float).toModel.unpack u)
      (UnpackedFloat.add Format.binary64 u u) := by
  rw [two_unpack]
  cases form with
  | zero sign => cases sign <;> exact .zero _ _
  | nonzero sign canonical => exact .inl (twice_form canonical sign)

theorem sub_self_alike (form : FiniteForm u) :
    AlikeForm (UnpackedFloat.sub Format.binary64 u u) (ofNat 0 : Float).toModel.unpack := by
  rw [zero_unpack]
  cases form with
  | zero sign => cases sign <;> exact .zero _ _
  | nonzero sign canonical => exact .inl (sub_self_form canonical.positive sign)

theorem div_self_alike (form : FiniteForm u) (nonzero : ∀ sign, u ≠ .zero sign) :
    AlikeForm (UnpackedFloat.div Format.binary64 u u) (ofNat 1 : Float).toModel.unpack := by
  rw [one_unpack]
  cases form with
  | zero sign => exact absurd rfl (nonzero sign)
  | nonzero sign canonical => exact .inl (div_self_form canonical.positive sign)

end

section

variable {x y c : Float} {u : UnpackedFloat}

theorem outcome_finite (defined : outcome u = some c) : u.isFinite = true := by
  obtain ⟨model, finite⟩ := outcome_some.1 defined
  rw [model] at finite
  cases u with
  | notANumber => cases finite
  | infinity sign => cases sign <;> cases finite
  | zero | finite => rfl

theorem neg_finite (finite : isFinite x = true) : isFinite (neg x) = true := by
  show (neg x).toModel.unpack.isFinite = true
  rw [neg_form]
  exact (finite_form finite).neg.finite

theorem zero_sub_alike (x : Float) :
    AlikeForm (UnpackedFloat.sub Format.binary64 (.zero .positive) x.toModel.unpack)
      (neg x).toModel.unpack := by
  rw [neg_form]
  exact (zero_neutral _).2.2.2

theorem nonzero_form (nonzero : same x (ofNat 0) = false) (sign : Sign) :
    x.toModel.unpack ≠ .zero sign := by
  intro zero
  rw [is_zero_iff.2 ⟨sign, zero⟩] at nonzero
  cases nonzero

theorem alike_of_form (finite : isFinite x = true) (alike : AlikeForm u x.toModel.unpack)
    (defined : outcome u = some c) : Alike x c := by
  obtain ⟨c', defined', close⟩ := outcome_of_form finite alike
  cases defined.symm.trans defined'
  exact close

theorem finite_of_some {result : Float} (defined : Double.finite? result = some c) :
    isFinite c = true := by
  unfold Double.finite? at defined
  split at defined
  · rename_i finite
    cases defined
    exact finite
  · cases defined

theorem div_domain (defined : div x y = some c) :
    isFinite x = true ∧ same y y = true ∧ same y (ofNat 0) = false := by
  obtain ⟨finite, number, nonzero⟩ := div_finite (outcome_finite defined)
  refine ⟨finite, same_iff_form.2 ⟨.inl rfl, number⟩, ?_⟩
  by_contra zero
  obtain ⟨sign, zero⟩ := is_zero_iff.1 (Bool.eq_true_of_not_eq_false zero)
  exact nonzero sign zero

theorem fold_alike (elementary : Elementary) {op : BinaryOp} {x' y' : Float} (left : Alike x x')
    (right : Alike y y') (result : op.fold x y = .ok (some c)) :
    ∃ c', op.fold x' y' = .ok (some c') ∧ Alike c' c := by
  have left' := alike_iff_form.1 left
  have right' := alike_iff_form.1 right
  have total {operation : UnpackedFloat → UnpackedFloat → UnpackedFloat} (total : Total operation)
      (defined : outcome (operation x.toModel.unpack y.toModel.unpack) = some c) :
      ∃ c', outcome (operation x'.toModel.unpack y'.toModel.unpack) = some c' ∧ Alike c' c :=
    outcome_alike (total.alike left' right') defined
  cases op with
  | add =>
      obtain ⟨c', defined, close⟩ := total (.inl rfl) (Except.ok.inj result)
      exact ⟨c', congrArg _ defined, close⟩
  | sub =>
      obtain ⟨c', defined, close⟩ := total (.inr (.inl rfl)) (Except.ok.inj result)
      exact ⟨c', congrArg _ defined, close⟩
  | mul =>
      obtain ⟨c', defined, close⟩ := total (.inr (.inr rfl)) (Except.ok.inj result)
      exact ⟨c', congrArg _ defined, close⟩
  | div =>
      have defined := Except.ok.inj result
      obtain ⟨-, -, nonzero⟩ := div_finite (outcome_finite defined)
      rcases right' with same | ⟨⟨sign, zero⟩, -⟩
      · obtain ⟨c', defined', close⟩ := outcome_alike (div_alike left') defined
        rw [same] at defined'
        exact ⟨c', congrArg _ defined', close⟩
      · exact absurd zero (nonzero sign)
  | pow =>
      obtain ⟨c', defined, close⟩ := elementary.pow_alike left right (Except.ok.inj result)
      exact ⟨c', congrArg _ defined, close⟩
  | other => cases result

end

/-- The doubles satisfy what simplification relies on. -/
theorem identities (elementary : Elementary) : Identities Float where
  same_symm := same_symm
  same_trans := same_trans
  fold_alike := fold_alike elementary
  neg_alike close := by
    rw [alike_iff_form] at close ⊢
    rw [neg_form, neg_form]
    exact neg_form_alike close
  apply_alike := elementary.apply_alike
  add_finite defined := Total.finite (.inl rfl) (outcome_finite defined)
  sub_finite defined := Total.finite (.inr (.inl rfl)) (outcome_finite defined)
  mul_finite defined := Total.finite (.inr (.inr rfl)) (outcome_finite defined)
  div_domain := div_domain
  zero_pow_domain := elementary.zero_pow_domain
  neg_neg a := .inl (neg_neg_eq a)
  zero_add finite := alike_of_form finite (zero_neutral _).1
  add_zero finite := alike_of_form finite (zero_neutral _).2.1
  add_self finite defined := outcome_alike (twice_alike (finite_form finite)).symm defined
  sub_zero finite := alike_of_form finite (zero_neutral _).2.2.1
  zero_sub finite := alike_of_form (neg_finite finite) (zero_sub_alike _)
  sub_self finite := alike_of_form rfl (sub_self_alike (finite_form finite))
  one_mul finite := alike_of_form finite (one_neutral (finite_form finite)).1
  mul_one finite := alike_of_form finite (one_neutral (finite_form finite)).2.1
  zero_mul _ defined := .inr (same_symm (zeros.zero_mul zeros.whole defined))
  mul_zero _ defined := .inr (same_symm (zeros.mul_zero zeros.whole defined))
  zero_div _ _ defined := .inr (same_symm (zeros.zero_div zeros.whole defined))
  div_one defined := by
    have finite := (div_domain defined).1
    exact alike_of_form finite (one_neutral (finite_form finite)).2.2 defined
  div_self finite nonzero := alike_of_form rfl
    (div_self_alike (finite_form finite) (nonzero_form nonzero))
  zero_pow := elementary.zero_pow
  one_pow := elementary.one_pow
  pow_zero := elementary.pow_zero
  pow_one := elementary.pow_one
  sin_zero := elementary.sin_zero
  cos_zero := elementary.cos_zero
  tg_zero := elementary.tg_zero
  ln_one := elementary.ln_one
  ln_euler := elementary.ln_euler

/-- The doubles have results where simplification needs them. -/
theorem results (elementary : Elementary) : Results Float where
  whole_finite {n} small := by
    obtain rfl | rfl | rfl : n = 0 ∨ n = 1 ∨ n = 2 := by omega
    · rfl
    · rfl
    · rfl
  neg_finite := neg_finite
  fold_finite {op} {_ _ _} result := by
    cases op with
    | add | sub | mul | div | pow => exact finite_of_some (Except.ok.inj result)
    | other => cases result
  zero_add finite := (outcome_of_form finite (zero_neutral _).1).imp fun _ => And.left
  add_zero finite := (outcome_of_form finite (zero_neutral _).2.1).imp fun _ => And.left
  sub_zero finite := (outcome_of_form finite (zero_neutral _).2.2.1).imp fun _ => And.left
  zero_sub finite := (outcome_of_form (neg_finite finite) (zero_sub_alike _)).imp fun _ => And.left
  one_mul finite :=
    (outcome_of_form finite (one_neutral (finite_form finite)).1).imp fun _ => And.left
  mul_one finite :=
    (outcome_of_form finite (one_neutral (finite_form finite)).2.1).imp fun _ => And.left
  div_one finite :=
    (outcome_of_form finite (one_neutral (finite_form finite)).2.2).imp fun _ => And.left
  pow_one := elementary.pow_one_defined
  add_self finite defined :=
    (outcome_alike (twice_alike (finite_form finite)) defined).imp fun _ => And.left

end Fluxion.Decimal
