import Fluxion.Algebra.Term

/-!
Canonical construction of terms. Nested sums and products are flattened, the
numbers in them are combined, equal terms of a sum add their coefficients and
equal bases in a product add their exponents. A number times a sum is carried out,
and so is a whole power of a product. Nothing else is changed.
-/

namespace Fluxion.Term

variable {α : Type} [Scalar α]

def sumOf : List (Term α) → Term α
  | [] => ofInt 0
  | [t] => t
  | ts => sum ts

def productOf : List (Term α) → Term α
  | [] => ofInt 1
  | [t] => t
  | ts => product ts

def terms : Term α → List (Term α)
  | sum ts => ts
  | t => [t]

def factors : Term α → List (Term α)
  | product fs => fs
  | t => [t]

def coefficient : Term α → Quantity α × Term α
  | product (number q :: rest) => (q, productOf rest)
  | t => (.exact 1, t)

def scaled (q : Quantity α) (t : Term α) : Term α :=
  if q.isExactly 0 then ofInt 0
  else if q.isExactly 1 then t
  else productOf (number q :: t.factors)

def splitNumbers : List (Term α) → List (Quantity α) × List (Term α)
  | [] => ([], [])
  | number q :: rest => let (qs, ts) := splitNumbers rest; (q :: qs, ts)
  | t :: rest => let (qs, ts) := splitNumbers rest; (qs, t :: ts)

def combineNumbers (combine? : Quantity α → Quantity α → Option (Quantity α))
    (start : Quantity α) (qs : List (Quantity α)) : Quantity α × List (Quantity α) :=
  qs.foldl (fun (total, others) q =>
    match combine? total q with
    | some q => (q, others)
    | none => (total, others ++ [q])) (start, [])

def addCoefficient (q : Quantity α) (t : Term α) :
    List (Quantity α × Term α) → List (Quantity α × Term α)
  | [] => [(q, t)]
  | (p, u) :: rest =>
      match if u.same t then p.add? q else none with
      | some total => (total, u) :: rest
      | none => (p, u) :: addCoefficient q t rest

def numberTerms (neutral : Int) (total : Quantity α) (others : List (Quantity α)) :
    List (Term α) :=
  (if total.isExactly neutral then [] else [number total]) ++ others.map number

def addAll (ts : List (Term α)) : Term α :=
  let (qs, others) := splitNumbers (ts.flatMap terms)
  let (total, uncombined) := combineNumbers Quantity.add? (.exact 0) qs
  let collected := others.foldl (fun entries t =>
    let (q, rest) := t.coefficient
    addCoefficient q rest entries) []
  let kept := (collected.map fun (q, t) => scaled q t).filter (!·.isExactly 0)
  sumOf (numberTerms 0 total uncombined ++ kept)

def add (a b : Term α) : Term α := addAll [a, b]

def baseExponent : Term α → Term α × Term α
  | power base exponent => (base, exponent)
  | apply .exponential [exponent] => (euler, exponent)
  | t => (t, ofInt 1)

def powerOf (base exponent : Term α) : Term α :=
  if exponent.isExactly 0 then ofInt 1
  else if exponent.isExactly 1 then base
  else match base with
    | euler => apply .exponential [exponent]
    | _ => power base exponent

def addExponent (base exponent : Term α) : List (Term α × Term α) → List (Term α × Term α)
  | [] => [(base, exponent)]
  | (b, e) :: rest =>
      if b.same base then (b, add e exponent) :: rest else (b, e) :: addExponent base exponent rest

def distribute (q : Quantity α) (ts : List (Term α)) : Term α :=
  addAll (ts.map fun t =>
    match t with
    | number p =>
        match q.mul? p with
        | some total => number total
        | none => product [number q, number p]
    | _ =>
        let (p, rest) := t.coefficient
        match q.mul? p with
        | some total => scaled total rest
        | none => product (number q :: t.factors))

/-- The product of a number and factors; zero times a singular value is none. -/
def withCoefficient (total : Quantity α) (uncombined : List (Quantity α)) (fs : List (Term α)) :
    Term α :=
  if total.isExactly 0 then if fs.any hasSingular then undefined else ofInt 0
  else
    match uncombined, fs with
    | [], [sum ts] => if total.isExactly 1 then sum ts else distribute total ts
    | _, _ => productOf (numberTerms 1 total uncombined ++ fs)

def mulAll (ts : List (Term α)) : Term α :=
  let (qs, others) := splitNumbers (ts.flatMap factors)
  let (total, uncombined) := combineNumbers Quantity.mul? (.exact 1) qs
  let collected := others.foldl (fun entries t =>
    let (base, exponent) := t.baseExponent
    addExponent base exponent entries) []
  let kept := (collected.map fun (base, exponent) => powerOf base exponent).filter
    (!·.isExactly 1)
  withCoefficient total uncombined kept

def mul (a b : Term α) : Term α := mulAll [a, b]

def neg (a : Term α) : Term α := mul (ofInt (-1)) a

/-- A whole power of a ratio; zero has no negative powers. -/
def ratioPower (q : Rat) (n : Int) : Term α :=
  if q = 0 ∧ n < 0 then complexInfinity else number (.exact (q ^ n))

def factorPower (n : Int) (t : Term α) : Term α :=
  match t with
  | number (.exact q) => ratioPower q n
  | _ =>
      let (base, exponent) := t.baseExponent
      powerOf base (mul (ofInt n) exponent)

def pow (base exponent : Term α) : Term α :=
  if exponent.isExactly 0 then ofInt 1
  else if exponent.isExactly 1 then base
  else
    match exponent with
    | number (.exact q) =>
        if base.isSingular then base
        else if q.den = 1 then mulAll (base.factors.map (factorPower q.num))
        else if base.isExactly 1 then ofInt 1
        else powerOf base exponent
    | number (.approximate x) =>
        match base with
        | number q =>
            match q.toScalar?.bind (Scalar.pow · x) with
            | some value => number (.ofResult value)
            | none => powerOf base exponent
        | _ => powerOf base exponent
    | _ => if base.isExactly 1 then ofInt 1 else powerOf base exponent

def sub (a b : Term α) : Term α := add a (neg b)

def div (a b : Term α) : Term α := mul a (pow b (ofInt (-1)))

/-- A named function at an argument: its value at 0 or 1 where that is known. -/
def applyNamed (f : NamedFunction) (arg : Term α) : Term α :=
  if arg.hasSingular then undefined
  else
    match f with
    | .sin | .tg => if arg.isExactly 0 then ofInt 0 else apply (.named f) [arg]
    | .cos => if arg.isExactly 0 then ofInt 1 else apply (.named f) [arg]
    | .ctg => if arg.isExactly 0 then complexInfinity else apply (.named f) [arg]
    | .ln =>
        if arg.isExactly 0 then complexInfinity
        else if arg.isExactly 1 then ofInt 0
        else apply (.named f) [arg]

def applyHead (head : Head) (arg : Term α) : Term α :=
  match head with
  | .named f => applyNamed f arg
  | _ => apply head [arg]

end Fluxion.Term
