import Fluxion.Proofs.Decimal.Zero
import Fluxion.Proofs.Derivative.Preserved
import Fluxion.Proofs.Simplify.Vanishing

/-!
Derivatives of trees without the variable. The rules put a derivative into every product
that they build, so what they make of a constant vanishes by its form, also where parts of
it are undefined. Main statement: the derivative of a constant is zero, if the exponents
in it can be optimized.
-/

namespace Fluxion

open Outcome Scalar Simplify

namespace Expr

section

variable {α : Type} [Scalar α] {epsilon : α} {v : String} {tree raw : Expr α}

theorem DerivesTo.vanishes (zeros : Zeros epsilon) (derives : tree.DerivesTo v raw)
    (constant : tree.isConstant v = true) : raw.Vanishes := by
  induction derives with
  | number | other | powerOfZero => exact .number zeros.whole
  | itself => simp [isConstant] at constant
  | known named argument inner | unknown nameless argument inner =>
      exact .rightFactor _ (inner constant)
  | marker under argument inner =>
      have constantCall := constant_under_markers constant
      rw [underMarkers, under] at constantCall
      exact .rightFactor _ (inner constantCall)
  | sign op argument inner => exact .sign op (inner constant)
  | sum first second left right =>
      simp only [isConstant, Bool.and_eq_true] at constant
      exact .sum (left constant.1) (right constant.2)
  | difference first second left right =>
      simp only [isConstant, Bool.and_eq_true] at constant
      exact .difference (left constant.1) (right constant.2)
  | product first second left right =>
      simp only [isConstant, Bool.and_eq_true] at constant
      exact .sum (.rightFactor _ (right constant.2)) (.leftFactor (left constant.1) _)
  | quotient first second left right =>
      simp only [isConstant, Bool.and_eq_true] at constant
      exact .dividend (.difference (.leftFactor (left constant.1) _)
        (.rightFactor _ (right constant.2))) _
  | power _ optimized nonzero first left =>
      simp only [isConstant, Bool.and_eq_true] at constant
      exact .rightFactor _ (left constant.1)
  | exponential varying | generalPower varying =>
      -- An exponent of a constant does not vary.
      simp [isConstant, varying] at constant

/-- In a tree that is less deep than sweeps are many, every exponent can be optimized. -/
theorem exponents_settle (built : tree.Built) (shallow : tree.height < sweepLimit)
    (base exponent : Expr α) (within : (binary .pow base exponent).Within tree) :
    ∃ optimized, exponent.optimize = .ok optimized := by
  cases done : exponent.optimize with
  | ok optimized => exact ⟨optimized, rfl⟩
  | error fault =>
      have deep := (exponents_unsettled built base exponent fault within done).2
      omega

theorem raw_derivative_of_exponents {allowed : String → Prop} (built : tree.Built)
    (marks : tree.Marks allowed) (exponents : ExponentsFail (fun _ => False) tree) :
    ∃ raw, tree.rawDerivative v = .ok raw ∧ tree.DerivesTo v raw := by
  unfold rawDerivative EStateM.run
  rcases (differentiate_gives_of_exponents built marks exponents).1 #[] with
    ⟨raw, after, done, derives⟩ | ⟨fault, after, failed, impossible⟩
  · rw [done]
    exact ⟨raw, rfl, derives⟩
  · exact impossible.elim

end

/-- The derivative of a tree by a variable that it does not hold is a zero, whatever else it
holds, provided that the exponents in it can be optimized. -/
theorem derivative_of_constant {tree : Expr Float} {v : String} (built : tree.Built)
    (marks : tree.Marks fun _ => True) (constant : tree.isConstant v = true)
    (settled : ∀ base exponent : Expr Float, (binary .pow base exponent).Within tree →
      ∃ optimized, exponent.optimize = .ok optimized) :
    ∃ zero : Float, tree.derivative v = .ok (num zero) ∧ Scalar.same zero 0 = true := by
  have exponents : ExponentsFail (fun _ => False) tree := by
    intro base exponent fault within failed
    obtain ⟨optimized, done⟩ := settled base exponent within
    rw [failed] at done
    cases done
  obtain ⟨raw, differentiated, derives⟩ := raw_derivative_of_exponents (v := v) built marks exponents
  obtain ⟨zero, sweeps, done, isZero⟩ := run_of_vanishing Decimal.zeros
    (derives.vanishes Decimal.zeros constant) (derives.built built).valid
  refine ⟨zero, ?_, isZero⟩
  simp [derivative, differentiated, optimize, done]

/-- In `f''(y) * (c/0)^(1+1)` there is no `x`, but a function without a rule under two markers
and a part without a value. -/
theorem derivative_of_constant_of_undefined :
    ∃ zero : Float, (binary .mul (marked .prime (marked .prime (call "f" (var "y"))))
      (binary .pow (binary .div (var "c") (num 0)) (binary .add (num 1) (num 1)))).derivative "x" =
        .ok (num zero) ∧ Scalar.same zero 0 = true := by
  have built : (binary .mul (marked .prime (marked .prime (call "f" (var "y"))))
      (binary .pow (binary .div (var "c") (num 0)) (binary .add (num 1) (num 1))) :
        Expr Float).Built := by
    simp [BinaryOp.isKnown, MarkOp.isKnown]
  refine derivative_of_constant built ?_ rfl (exponents_settle built (by decide))
  simp [Marks, underMarkers]

end Expr

end Fluxion
