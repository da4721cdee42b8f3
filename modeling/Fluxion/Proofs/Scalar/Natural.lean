import Fluxion.Proofs.Scalar.Zero
import Mathlib.Algebra.Group.Nat.Defs

/-!
What lowering the exponents of powers asks of the numbers.
-/

namespace Fluxion

open Scalar

variable {α : Type} [Scalar α]

/-- The number is this natural one, of up to 53 bits. -/
def Scalar.IsNatural (a : α) (n : Nat) : Prop := toInt? a = some (n : Int) ∧ n < 2 ^ 53

/-- Natural numbers are told from zero and one, and one is subtracted from them exactly. -/
structure Naturals (epsilon : α) : Prop where
  zero : IsNatural (ofNat 0 : α) 0
  one : IsNatural (ofNat 1 : α) 1
  is_zero {a : α} : IsNatural a 0 → IsZero a
  near_zero {a : α} {n : Nat} : IsNatural a n → near epsilon a (ofNat 0) = true → n = 0
  near_one {a : α} {n : Nat} : IsNatural a n → near epsilon a (ofNat 1) = true → n = 1
  same_one {a : α} {n : Nat} : IsNatural a n → same a (ofNat 1) = true → n = 1
  pred {a : α} {n : Nat} : IsNatural a (n + 1) →
    ∃ b, sub a (ofNat 1) = some b ∧ IsNatural b n

end Fluxion
