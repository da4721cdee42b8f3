import Fluxion.Proofs.Decimal.Finite
import Fluxion.Proofs.Expr.Evaluated
import Fluxion.Proofs.Notation.Related

/-!
Doubles that are equal, side by side. Only the two zeros are equal without being the same, and
nothing but the sign of another zero comes of that: texts, comparisons and the four operations
are alike. Main statement: over a library of functions that respects equality the engine cannot
tell equal doubles apart.
-/

namespace Fluxion.Decimal

open Float.Model UnpackedFloat

variable {x x' y y' : Float} {u v : UnpackedFloat}

/-- Equal numbers are whole together, or they have the same text. -/
theorem text_of_same (same : Scalar.same x y = true) :
    Scalar.toInt? x = Scalar.toInt? y ∧
      (Scalar.toInt? x = none → Scalar.text x = Scalar.text y) := by
  rcases (same_iff_form.1 same).1 with form | ⟨⟨sign, zero⟩, sign', zero'⟩
  · rw [eq_of_form form]
    exact ⟨rfl, fun _ => rfl⟩
  · rw [to_int_of_zero zero, to_int_of_zero zero']
    exact ⟨rfl, nofun⟩

theorem signs_of_same (same : Scalar.same x y = true) :
    Scalar.isNegative x = Scalar.isNegative y ∧
      Scalar.isNonNegative x = Scalar.isNonNegative y := by
  rw [is_negative_unpack, is_negative_unpack, is_non_negative_unpack, is_non_negative_unpack]
  rcases (same_iff_form.1 same).1 with form | ⟨⟨sign, zero⟩, sign', zero'⟩
  · rw [form]
    exact ⟨rfl, rfl⟩
  · rw [zero, zero']
    cases sign <;> cases sign' <;> exact ⟨rfl, rfl⟩

theorem same_congr (left : Scalar.same x x' = true) (right : Scalar.same y y' = true) :
    Scalar.same x y = Scalar.same x' y' := by
  rw [Bool.eq_iff_iff]
  constructor
  · exact fun same => same_trans (same_symm left) (same_trans same right)
  · exact fun same => same_trans left (same_trans same (same_symm right))

theorem near_of_same (epsilon c : Float) (same : Scalar.same x y = true) :
    Scalar.near epsilon x c = Scalar.near epsilon y c := by
  rw [near_unpack, near_unpack]
  have differences : AlikeForm
      (UnpackedFloat.sub Format.binary64 c.toModel.unpack x.toModel.unpack)
      (UnpackedFloat.sub Format.binary64 c.toModel.unpack y.toModel.unpack) :=
    Total.alike (.inr (.inl rfl)) (.inl rfl) (same_iff_form.1 same).1
  rcases differences with form | ⟨⟨sign, zero⟩, sign', zero'⟩
  · rw [form]
  · rw [zero, zero', unpack_pack_zero, unpack_pack_zero]
    rfl

theorem whole_same (n : Nat) : Scalar.same (Scalar.ofNat n : Float) (Scalar.ofNat n) = true := by
  refine same_iff_form.2 ⟨.inl rfl, ?_⟩
  rcases of_nat_cases n with ⟨whole, integer⟩ | ⟨-, infinite⟩
  · rcases unpack_of_whole integer with ⟨-, sign, zero⟩ | ⟨_, _, _, -, unpacked⟩
    · rw [zero]
      nofun
    · rw [unpacked]
      nofun
  · have form : Decimal.infinite.toModel.unpack = .infinity .positive := rfl
    rw [infinite, form]
    nofun

theorem neg_same (same : Scalar.same x y = true) :
    Scalar.same (Scalar.neg x) (Scalar.neg y) = true := by
  obtain ⟨alike, number⟩ := same_iff_form.1 same
  refine same_iff_form.2 ⟨?_, ?_⟩
  · rw [neg_form, neg_form]
    exact neg_form_alike alike
  · rw [neg_form]
    cases form : x.toModel.unpack with
    | notANumber => exact absurd form number
    | infinity | zero | finite => nofun

theorem same_of_alike (finite : Scalar.isFinite y = true) (alike : Scalar.Alike x y) :
    Scalar.same x y = true := by
  rcases alike with rfl | same
  · refine same_iff_form.2 ⟨.inl rfl, fun number => ?_⟩
    change x.toModel.unpack.isFinite = true at finite
    rw [number] at finite
    cases finite
  · exact same

theorem outcome_same (alike : AlikeForm u v) :
    Option.Rel (fun x y : Float => Scalar.same x y = true) (outcome u) (outcome v) := by
  cases defined : outcome u with
  | none =>
      cases defined' : outcome v with
      | none => exact .none
      | some c =>
          obtain ⟨_, some, -⟩ := outcome_alike alike.symm defined'
          rw [defined] at some
          cases some
  | some c =>
      obtain ⟨c', defined', close⟩ := outcome_alike alike defined
      rw [defined']
      exact .some (same_symm (same_of_alike (outcome_some.1 defined).2 close))

theorem div_same (left : Scalar.same x x' = true) (right : Scalar.same y y' = true) :
    Option.Rel (fun x y : Float => Scalar.same x y = true) (Scalar.div x y)
      (Scalar.div x' y') := by
  show Option.Rel _ (outcome (UnpackedFloat.div Format.binary64 x.toModel.unpack y.toModel.unpack))
    (outcome (UnpackedFloat.div Format.binary64 x'.toModel.unpack y'.toModel.unpack))
  have undefined (u : UnpackedFloat) (sign : Sign) :
      outcome (UnpackedFloat.div Format.binary64 u (.zero sign)) = none := by
    cases defined : outcome (UnpackedFloat.div Format.binary64 u (.zero sign)) with
    | none => rfl
    | some c => exact absurd rfl ((div_finite (outcome_finite defined)).2.2 sign)
  have alike := outcome_same (div_alike (v := y.toModel.unpack) (same_iff_form.1 left).1)
  rcases (same_iff_form.1 right).1 with form | ⟨⟨sign, zero⟩, sign', zero'⟩
  · rwa [form] at alike ⊢
  · rw [zero, zero', undefined, undefined]
    exact .none

namespace Library

variable (library : Library)

/-- The functions do not tell equal doubles apart: they have equal results, or none together. -/
structure Respects : Prop where
  pow {a a' b b' : Float} : Scalar.same a a' = true → Scalar.same b b' = true →
    Option.Rel (fun x y : Float => Scalar.same x y = true) (Double.finite? (library.pow a b))
      (Double.finite? (library.pow a' b'))
  apply (f : NamedFunction) {a a' : Float} : Scalar.same a a' = true →
    Option.Rel (fun x y : Float => Scalar.same x y = true) (library.apply f a)
      (library.apply f a')

theorem alike_texts :
    @AlikeTexts Float library.scalar fun x y => Scalar.same x y = true := by
  let _ := library.scalar
  refine ⟨?_, fun same => (signs_of_same same).1, fun same => (signs_of_same same).2⟩
  intro x y same
  obtain ⟨integer, text⟩ := text_of_same same
  have integer : Scalar.toInt? x = Scalar.toInt? y := integer
  rw [Scalar.plainText, Scalar.plainText, ← integer]
  cases whole : Scalar.toInt? x with
  | some n => rfl
  | none => exact text whole

variable {library} (respects : library.Respects)

include respects

theorem alike_numbers (epsilon : Float) :
    @AlikeNumbers Float library.scalar epsilon fun x y => Scalar.same x y = true := by
  let _ := library.scalar
  exact {
    whole := whole_same
    neg := neg_same
    same := same_congr
    near := fun n same => near_of_same epsilon _ same
    fold := by
      intro a a' b b' op left right
      have left' := (same_iff_form.1 left).1
      have right' := (same_iff_form.1 right).1
      cases op with
      | add => exact .ok (outcome_same (Total.alike (.inl rfl) left' right'))
      | sub => exact .ok (outcome_same (Total.alike (.inr (.inl rfl)) left' right'))
      | mul => exact .ok (outcome_same (Total.alike (.inr (.inr rfl)) left' right'))
      | div => exact .ok (div_same left right)
      | pow => exact .ok (respects.pow left right)
      | other symbol => exact .error _ }

theorem alike_values :
    @AlikeValues Float library.scalar fun x y => Scalar.same x y = true := by
  have euler : Scalar.same (2.718281828459045 : Float) 2.718281828459045 = true := by
    decide +kernel
  have pi : Scalar.same (3.141592653589793 : Float) 3.141592653589793 = true := by
    decide +kernel
  let _ := library.scalar
  exact ⟨fun f => respects.apply f, euler, pi⟩

end Library

end Fluxion.Decimal
