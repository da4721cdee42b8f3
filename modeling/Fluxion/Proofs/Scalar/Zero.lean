import Fluxion.Scalar.Basic

/-!
What becomes of the zeros in arithmetic. There may be several of them, which count as equal.
-/

namespace Fluxion

namespace Scalar

variable {α : Type} [Scalar α]

def IsZero (a : α) : Prop := same a (ofNat 0) = true

end Scalar

open Scalar

/-- Where arithmetic with zeros has a result, it is the zero that it should be, and a zero is
near to zero and not to one. -/
structure Zeros {α : Type} [Scalar α] (epsilon : α) : Prop where
  whole : IsZero (ofNat 0 : α)
  near_zero {a : α} : IsZero a → near epsilon a (ofNat 0) = true
  not_near_one {a : α} : IsZero a → near epsilon a (ofNat 1) = false
  neg {a : α} : IsZero a → IsZero (neg a)
  add {a b c : α} : IsZero a → IsZero b → add a b = some c → IsZero c
  sub {a b c : α} : IsZero a → IsZero b → sub a b = some c → IsZero c
  zero_mul {a b c : α} : IsZero a → mul a b = some c → IsZero c
  mul_zero {a b c : α} : IsZero b → mul a b = some c → IsZero c
  zero_div {a b c : α} : IsZero a → div a b = some c → IsZero c

end Fluxion
