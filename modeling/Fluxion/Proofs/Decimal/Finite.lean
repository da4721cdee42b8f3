import Fluxion.Proofs.Decimal.Arithmetic
import Fluxion.Proofs.Expr.Finite

/-!
Finite values. The functions of a double come from a library of which only the IEEE results
are known, so evaluation is stated over any such library. An operator has a finite result or
none; a function of a finite number is finite, unless it is a cotangent whose quotient
overflows. Main statement: evaluation gives a finite number or an evaluation fault, except
where the value of such a cotangent reaches the root of the tree.
-/

namespace Fluxion.Decimal

open Float.Model UnpackedFloat

section

variable {x y : Float} {u : UnpackedFloat}

theorem unpack_number_of_exponent {bits : BitVec Format.binary64.numBits}
    (inner : unpackExponent bits ≠ -1#11) :
    UnpackedFloat.unpack Format.binary64 bits ≠ .notANumber := by
  rw [UnpackedFloat.unpack]
  simp only [if_neg inner]
  split
  · split <;> nofun
  · nofun

/-- What is a number stays one when it is written into bits, be it as an infinity. -/
theorem unpack_pack_number (number : u ≠ .notANumber) :
    (Float.Model.pack u).unpack ≠ .notANumber := by
  cases u with
  | notANumber => exact absurd rfl number
  | infinity sign => cases sign <;> nofun
  | zero sign =>
      rw [unpack_pack_zero]
      nofun
  | finite sign significand exponent positive =>
      show UnpackedFloat.unpack Format.binary64 (UnpackedFloat.pack Format.binary64
        (.finite sign significand exponent positive)) ≠ .notANumber
      simp only [UnpackedFloat.pack]
      split
      · cases sign <;> nofun
      rename_i small
      split
      · apply unpack_number_of_exponent
        rw [unpackExponent_packComponents, Ne, ← BitVec.toNat_inj, BitVec.toNat_ofNat,
          Nat.mod_eq_of_lt (by omega)]
        have small : ¬ 2 ^ 11 ≤ _ + 1 := small
        show _ ≠ 2047
        omega
      · apply unpack_number_of_exponent
        rw [unpackExponent_packComponents]
        decide

theorem round_number (sign : Sign) (significand : Nat) (exponent : Int) (accuracy : Accuracy) :
    roundWithAccuracy Format.binary64 sign significand exponent accuracy ≠ .notANumber := by
  simp only [roundWithAccuracy]
  split <;> simp

theorem infinite_of_number (number : x.toModel.unpack ≠ .notANumber)
    (infinite : x.isFinite ≠ true) : x.isInf = true := by
  show x.toModel.unpack.isInf = true
  change ¬ x.toModel.unpack.isFinite = true at infinite
  cases form : x.toModel.unpack with
  | notANumber => exact absurd form number
  | infinity sign => rfl
  | zero | finite => exact absurd (form ▸ rfl) infinite

theorem div_number {v : UnpackedFloat} (finite : u.isFinite = true) (finite' : v.isFinite = true)
    (nonzero : ∀ sign, v ≠ .zero sign) :
    UnpackedFloat.div Format.binary64 u v ≠ .notANumber := by
  cases v with
  | notANumber | infinity => cases finite'
  | zero sign => exact absurd rfl (nonzero sign)
  | finite =>
      cases u with
      | notANumber | infinity => cases finite
      | zero => nofun
      | finite => exact round_number _ _ _ _

/-- The quotient of finite doubles may be too large, but it is a number. -/
theorem quotient_of_finite (finite : x.isFinite = true) (finite' : y.isFinite = true)
    (nonzero : ¬ (y == 0) = true) : (x / y).isFinite = true ∨ (x / y).isInf = true := by
  have divisor : ∀ sign, y.toModel.unpack ≠ .zero sign := fun sign zero =>
    nonzero (is_zero_iff.2 ⟨sign, zero⟩)
  have number : (x / y).toModel.unpack ≠ .notANumber :=
    unpack_pack_number (div_number finite finite' divisor)
  by_cases whole : (x / y).isFinite = true
  · exact .inl whole
  · exact .inr (infinite_of_number number whole)

theorem infinite_of_neg (infinite : x.isInf = true) : (-x).isInf = true := by
  show (Scalar.neg x).toModel.unpack.isInf = true
  rw [neg_form]
  change x.toModel.unpack.isInf = true at infinite
  cases form : x.toModel.unpack with
  | infinity sign => rfl
  | notANumber | zero | finite =>
      rw [form] at infinite
      cases infinite

theorem finite_not_infinite (finite : x.isFinite = true) : x.isInf = false := by
  change x.toModel.unpack.isFinite = true at finite
  show x.toModel.unpack.isInf = false
  cases form : x.toModel.unpack with
  | notANumber | infinity =>
      rw [form] at finite
      cases finite
  | zero | finite => rfl

theorem bounded_finite {f : Float → Float} (finite : x.isFinite = true)
    (image : (f x).isFinite = true) (defined : Double.bounded f x = some y) :
    y.isFinite = true := by
  simp only [Double.bounded, finite_not_infinite finite, Bool.false_eq_true, if_false] at defined
  cases defined
  exact image

end

/-- The functions that doubles are given by the library of the machine. -/
structure Library where
  sin : Float → Float
  cos : Float → Float
  tan : Float → Float
  log : Float → Float
  pow : Float → Float → Float

namespace Library

def machine : Library where
  sin := Float.sin
  cos := Float.cos
  tan := Float.tan
  log := Float.log
  pow := Float.pow

variable (library : Library)

def apply : NamedFunction → Float → Option Float
  | .sin => Double.bounded library.sin
  | .cos => Double.bounded library.cos
  | .tg => Double.bounded library.tan
  | .ctg => fun x =>
      if x.isInf then none
      else if library.sin x == 0.0 then none
      else some (library.cos x / library.sin x)
  | .ln => fun x => if x ≤ 0.0 then none else some (library.log x)

@[reducible] def scalar : Scalar Float :=
  { (inferInstance : Scalar Float) with
    pow x y := Double.finite? (library.pow x y)
    apply := library.apply }

theorem scalar_machine : machine.scalar = (inferInstance : Scalar Float) := rfl

/-- The functions have their IEEE results, where there are any. -/
structure Standard : Prop where
  sin_finite {x : Float} : x.isFinite = true → (library.sin x).isFinite = true
  cos_finite {x : Float} : x.isFinite = true → (library.cos x).isFinite = true
  tan_finite {x : Float} : x.isFinite = true → (library.tan x).isFinite = true
  log_finite {x : Float} : x.isFinite = true → ¬ x ≤ 0.0 → (library.log x).isFinite = true
  log_infinite {x : Float} : x.isInf = true → ¬ x ≤ 0.0 → (library.log x).isInf = true

section

variable {library} (standard : library.Standard) {f : NamedFunction} {a b : Float}
include standard

theorem apply_finite (finite : a.isFinite = true) (defined : library.apply f a = some b) :
    b.isFinite = true ∨ f = .ctg ∧ b.isInf = true := by
  cases f with
  | sin => exact .inl (bounded_finite finite (standard.sin_finite finite) defined)
  | cos => exact .inl (bounded_finite finite (standard.cos_finite finite) defined)
  | tg => exact .inl (bounded_finite finite (standard.tan_finite finite) defined)
  | ctg =>
      simp only [apply, finite_not_infinite finite, Bool.false_eq_true, if_false] at defined
      split at defined
      · cases defined
      · rename_i nonzero
        cases defined
        have quotient := quotient_of_finite (standard.cos_finite finite)
          (standard.sin_finite finite) nonzero
        exact quotient.imp_right fun beyond => ⟨rfl, beyond⟩
  | ln =>
      simp only [apply] at defined
      split at defined
      · cases defined
      · rename_i positive
        cases defined
        exact .inl (standard.log_finite finite positive)

theorem apply_infinite (infinite : a.isInf = true) (defined : library.apply f a = some b) :
    f = .ln ∧ b.isInf = true := by
  cases f with
  | sin | cos | tg | ctg => simp [apply, Double.bounded, infinite] at defined
  | ln =>
      simp only [apply] at defined
      split at defined
      · cases defined
      · rename_i positive
        cases defined
        exact ⟨rfl, standard.log_infinite infinite positive⟩

theorem ranges :
    @Scalar.Ranges Float library.scalar (·.isFinite = true) (·.isInf = true) := by
  let _ := library.scalar
  exact {
    euler := by
      show (2.718281828459045 : Float).isFinite = true
      decide +kernel
    pi := by
      show (3.141592653589793 : Float).isFinite = true
      decide +kernel
    neg_finite := neg_finite
    neg_infinite := infinite_of_neg
    fold_finite := by
      intro op a b c folds
      cases op with
      | add | sub | mul | div | pow => exact finite_of_some (Except.ok.inj folds)
      | other symbol => cases folds
    apply_finite := apply_finite standard
    apply_infinite := apply_infinite standard }

end

/-- Over finite numbers evaluation gives a finite number or a fault of its own, unless a
cotangent overflows below nothing but signs and logarithms; then the value is an infinity. -/
theorem evaluated_in_range {library : Library} (standard : library.Standard) {tree : Expr Float}
    {value : Float} {variableName : String} {environment : Bindings Float} (built : tree.Built)
    (numbers : tree.NumbersHold (·.isFinite = true))
    (finite : value.isFinite = true)
    (bound : ∀ name w, environment name = some w → w.isFinite = true) :
    letI := library.scalar
    (∃ w, tree.evaluate value variableName environment = .ok w ∧ w.isFinite = true) ∨
    (∃ fault, tree.evaluate value variableName environment = .error (.evaluation fault)) ∨
    ∃ w, tree.evaluate value variableName environment = .ok w ∧ w.isInf = true ∧
      Expr.Overflows (·.isFinite = true) (·.isInf = true)
        (Bindings.ofVariable variableName value environment) tree :=
  @Expr.evaluate_of_ranges Float library.scalar _ _ _ (ranges standard) _ _ _ built numbers finite
    bound

/-- Near zero the sine and the tangent are the number itself and the cosine is one. -/
def nearZero : Library where
  sin x := x
  cos _ := 1
  tan x := x
  log x := if x.isInf then x else 0
  pow _ _ := 1

theorem near_zero_standard : nearZero.Standard where
  sin_finite finite := finite
  cos_finite _ := by
    show (1 : Float).isFinite = true
    decide +kernel
  tan_finite finite := finite
  log_finite {x} finite _ := by
    show (if x.isInf = true then x else 0).isFinite = true
    rw [finite_not_infinite finite, if_neg Bool.false_ne_true]
    decide +kernel
  log_infinite {x} infinite _ := by
    show (if x.isInf = true then x else 0).isInf = true
    rw [if_pos infinite]
    exact infinite

def shiftedCotangent : Expr Float := .binary .add (.call "ctg" (.var "x")) (.num 1)

theorem evaluated_in_range_of_cotangent :
    letI := nearZero.scalar
    ∃ w, shiftedCotangent.evaluate 1e-9 "x" Bindings.none = .ok w ∧ w.isFinite = true := by
  have built : shiftedCotangent.Built := by simp [shiftedCotangent, BinaryOp.isKnown]
  have one : (1 : Float).isFinite = true := by decide +kernel
  have numbers : shiftedCotangent.NumbersHold (·.isFinite = true) := ⟨trivial, one⟩
  have finite : (1e-9 : Float).isFinite = true := by decide +kernel
  have valued : (@Expr.evaluate Float nearZero.scalar shiftedCotangent 1e-9 "x"
      Bindings.none).toOption.isSome = true := by
    decide +kernel
  rcases @evaluated_in_range nearZero near_zero_standard shiftedCotangent 1e-9 "x" Bindings.none
    built numbers finite nofun with done | ⟨fault, failed⟩ | ⟨w, -, -, overflows⟩
  · exact done
  · rw [failed] at valued
    cases valued
  · cases overflows

/-- The cotangent of the least double above zero is beyond the largest one, and evaluation gives
an infinity. -/
theorem cotangent_of_least_infinite :
    nearZero.Standard ∧ (5e-324 : Float).isFinite = true ∧
      letI := nearZero.scalar
      ∃ w : Float, (Expr.call "ctg" (.var "x")).evaluate 5e-324 "x" Bindings.none = .ok w ∧
        w.isInf = true := by
  refine ⟨near_zero_standard, by decide +kernel, ?_⟩
  have valued : ((@Expr.evaluate Float nearZero.scalar (.call "ctg" (.var "x")) 5e-324 "x"
      Bindings.none).toOption.any (·.isInf)) = true := by
    decide +kernel
  obtain ⟨w, some, beyond⟩ := (Option.any_eq_true _ _).1 valued
  exact ⟨w, Outcome.to_option_eq_some.1 some, beyond⟩

end Library

end Fluxion.Decimal
