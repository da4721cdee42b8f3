import Fluxion.Algebra.Canonical

/-!
The written order of polynomials. Monomials come in descending lexicographic order
of their exponents, the variables taken by name, so that the constant is last; in
a monomial the number is first and the variables follow by name.
-/

namespace Fluxion.Term

variable {α : Type} [Scalar α]

def factorDegree (name : String) : Term α → Nat
  | symbol other => if other = name then 1 else 0
  | power (symbol other) (number (.exact q)) => if other = name then q.num.toNat else 0
  | _ => 0

def degree (name : String) (t : Term α) : Nat :=
  t.factors.foldl (fun total f => total + factorDegree name f) 0

def factorVariables : Term α → List String
  | symbol name => [name]
  | power (symbol name) _ => [name]
  | _ => []

def variableNames (ts : List (Term α)) : List String :=
  ((ts.flatMap factors).flatMap factorVariables).eraseDups.mergeSort (· ≤ ·)

def degreesBefore : List Nat → List Nat → Bool
  | a :: as, b :: bs => b < a || (a == b && degreesBefore as bs)
  | _, _ => true

def orderTerms (ts : List (Term α)) : List (Term α) :=
  let names := variableNames ts
  ts.mergeSort fun a b => degreesBefore (names.map (degree · a)) (names.map (degree · b))

def orderFactors (fs : List (Term α)) : List (Term α) :=
  let key (t : Term α) : String := (factorVariables t).headD ""
  let (qs, others) := splitNumbers fs
  qs.map number ++ others.mergeSort fun a b => key a ≤ key b

mutual

def ordered : Term α → Term α
  | sum ts => sum (orderTerms (orderedAll ts))
  | product fs => product (orderFactors (orderedAll fs))
  | power base exponent => power base.ordered exponent.ordered
  | apply head args => apply head (orderedAll args)
  | slope head order point => slope head order point.ordered
  | leaf => leaf

def orderedAll : List (Term α) → List (Term α)
  | [] => []
  | t :: ts => t.ordered :: orderedAll ts

end

end Fluxion.Term
