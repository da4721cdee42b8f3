import Fluxion.Algebra.Canonical

/-!
Taking terms apart. In which order a sum or a product is written, what its numeric
factor is and what counts as base and exponent of a power is up to the algebra
system; whoever walks over a term asks for it and relies on smaller parts only.
Terms whose sums and products stand in their written order are taken apart here.
-/

namespace Fluxion

/-- How terms are taken apart. Each part is smaller by some measure. -/
structure Parting (α : Type) [Scalar α] where
  size : Term α → Nat
  /-- The terms of a sum in their written order. -/
  orderedTerms : List (Term α) → List (Term α)
  /-- The factors of a product in their written order. -/
  orderedFactors : List (Term α) → List (Term α)
  /-- The numeric factor of a product, which is one where there is none, and the rest. -/
  coefficient : List (Term α) → Quantity α × Term α
  baseExponent : Term α → Term α → Term α × Term α
  term_smaller {terms : List (Term α)} {part : Term α} :
    part ∈ orderedTerms terms → size part < size (.sum terms)
  factor_smaller {factors : List (Term α)} {part : Term α} :
    part ∈ orderedFactors factors → size part < size (.product factors)
  /-- Only a numeric factor of minus one is split off. -/
  rest_smaller {factors : List (Term α)} : (coefficient factors).1.isExactly (-1) = true →
    size (coefficient factors).2 < size (.product factors)
  base_smaller (base exponent : Term α) :
    size (baseExponent base exponent).1 < size (.power base exponent)
  exponent_smaller (base exponent : Term α) :
    size (baseExponent base exponent).2 < size (.power base exponent)
  argument_smaller (head : Head) {args : List (Term α)} {arg : Term α} :
    arg ∈ args → size arg < size (.apply head args)

namespace Term

variable {α : Type} [Scalar α]

mutual

def size : Term α → Nat
  | sum terms => sizeAll terms + 1
  | product factors => sizeAll factors + 1
  | power base exponent => base.size + exponent.size + 1
  | apply _ args => sizeAll args + 1
  | slope _ _ point => point.size + 1
  | _ => 1

def sizeAll : List (Term α) → Nat
  | [] => 0
  | t :: ts => t.size + sizeAll ts

end

/-- The factors of a product, a negative number in front as its sign and its size. -/
def signedFactors : List (Term α) → List (Term α)
  | number q :: rest =>
      if q.isNegative && !q.isExactly (-1) then ofInt (-1) :: number q.neg :: rest
      else number q :: rest
  | factors => factors

omit [Scalar α] in
theorem size_le_of_mem {t : Term α} {ts : List (Term α)} (member : t ∈ ts) :
    t.size ≤ sizeAll ts := by
  induction member with
  | head rest => exact Nat.le_add_right _ _
  | tail other _ below => exact Nat.le_trans below (Nat.le_add_left _ _)

omit [Scalar α] in
theorem size_product_of (ts : List (Term α)) : (productOf ts).size ≤ sizeAll ts + 1 := by
  match ts with
  | [] => exact Nat.le_refl 1
  | [t] => exact Nat.le_succ _
  | _ :: _ :: _ => exact Nat.le_refl _

theorem size_signed_factors {t : Term α} {ts : List (Term α)} (member : t ∈ signedFactors ts) :
    t.size ≤ sizeAll ts := by
  unfold signedFactors at member
  split at member
  · split at member
    · -- numbers have no parts, so that splitting one makes no larger ones
      rcases List.mem_cons.1 member with rfl | member
      · exact Nat.le_add_right 1 _
      rcases List.mem_cons.1 member with rfl | member
      · exact Nat.le_add_right 1 _
      · exact Nat.le_trans (size_le_of_mem member) (Nat.le_add_left _ _)
    · exact size_le_of_mem member
  · exact size_le_of_mem member

omit [Scalar α] in
theorem size_rest {ts : List (Term α)}
    (opposite : (product ts).coefficient.1.isExactly (-1) = true) :
    (product ts).coefficient.2.size < (product ts).size := by
  unfold coefficient at opposite ⊢
  split at opposite
  · rename_i q rest same
    cases same
    have bound := size_product_of rest
    simp only [size, sizeAll]
    omega
  · exact absurd opposite (show ¬((1 : Rat) == ((-1 : Int) : Rat)) = true by decide)

end Term

open Term

/-- Sums and products stand in their written order, a product with its number in front. -/
def Parting.written {α : Type} [Scalar α] : Parting α where
  size := Term.size
  orderedTerms terms := terms
  orderedFactors := signedFactors
  coefficient factors := (product factors).coefficient
  baseExponent base exponent := (base, exponent)
  term_smaller member := Nat.lt_succ_of_le (size_le_of_mem member)
  factor_smaller member := Nat.lt_succ_of_le (size_signed_factors member)
  rest_smaller := size_rest
  base_smaller _ _ := Nat.lt_succ_of_le (Nat.le_add_right _ _)
  exponent_smaller _ _ := Nat.lt_succ_of_le (Nat.le_add_left _ _)
  argument_smaller _ := fun member => Nat.lt_succ_of_le (size_le_of_mem member)

end Fluxion
