import Fluxion.Proofs.Decimal.Natural
import Fluxion.Proofs.Derivative.Preserved
import Fluxion.Proofs.Simplify.Vanishing

/-!
Degrees of polynomials by their form. Neither differentiation nor optimization keeps the form
of a polynomial, but both keep a bound on its degree, and differentiation lowers the bound by
one; below zero there are only trees that vanish. Main statement: a derivative of an order
beyond the degree is a zero, unless sweeps run out.
-/

namespace Fluxion

open Outcome Scalar Simplify

variable {α : Type} [Scalar α]

namespace Expr

/-- The tree has the form of a polynomial, and this is the degree in the variable that the
form gives it. -/
inductive HasDegree (v : String) : Expr α → Nat → Prop
  | number (value : α) : HasDegree v (num value) 0
  | itself : HasDegree v (var v) 1
  | other {name : String} (differs : name ≠ v) : HasDegree v (var name) 0
  | sign (op : SignOp) {operand : Expr α} {degree : Nat} (inner : HasDegree v operand degree) :
      HasDegree v (signed op operand) degree
  | sum {lhs rhs : Expr α} {m n : Nat} (left : HasDegree v lhs m) (right : HasDegree v rhs n) :
      HasDegree v (binary .add lhs rhs) (max m n)
  | difference {lhs rhs : Expr α} {m n : Nat} (left : HasDegree v lhs m)
      (right : HasDegree v rhs n) : HasDegree v (binary .sub lhs rhs) (max m n)
  | product {lhs rhs : Expr α} {m n : Nat} (left : HasDegree v lhs m)
      (right : HasDegree v rhs n) : HasDegree v (binary .mul lhs rhs) (m + n)
  | power {base : Expr α} {degree n : Nat} {exponent : α} (left : HasDegree v base degree)
      (natural : IsNatural exponent n) : HasDegree v (binary .pow base (num exponent)) (n * degree)

/-- A natural exponent as it is written, or as differentiation lowers it. -/
inductive NaturalExponent : Expr α → Nat → Prop
  | number {exponent : α} {n : Nat} (natural : IsNatural exponent n) :
      NaturalExponent (num exponent) n
  | lowered {exponent : α} {n : Nat} (natural : IsNatural exponent (n + 1)) :
      NaturalExponent (binary .sub (num exponent) (num (ofNat 1))) n

/-- The degree of the tree in the variable is below the bound. Below zero are the zeros, and
so is a product that has one of them as a factor. -/
inductive DegreeBelow (v : String) : Expr α → Nat → Prop
  | number {value : α} {bound : Nat} (fits : IsZero value ∨ 0 < bound) :
      DegreeBelow v (num value) bound
  | itself {bound : Nat} (fits : 1 < bound) : DegreeBelow v (var v) bound
  | other {name : String} {bound : Nat} (differs : name ≠ v) (fits : 0 < bound) :
      DegreeBelow v (var name) bound
  | sign (op : SignOp) {operand : Expr α} {bound : Nat} (inner : DegreeBelow v operand bound) :
      DegreeBelow v (signed op operand) bound
  | sum {lhs rhs : Expr α} {bound : Nat} (left : DegreeBelow v lhs bound)
      (right : DegreeBelow v rhs bound) : DegreeBelow v (binary .add lhs rhs) bound
  | difference {lhs rhs : Expr α} {bound : Nat} (left : DegreeBelow v lhs bound)
      (right : DegreeBelow v rhs bound) : DegreeBelow v (binary .sub lhs rhs) bound
  | product {lhs rhs : Expr α} {m n bound : Nat} (left : DegreeBelow v lhs m)
      (right : DegreeBelow v rhs n) (fits : m = 0 ∨ n = 0 ∨ m + n ≤ bound + 1) :
      DegreeBelow v (binary .mul lhs rhs) bound
  | power {base exponent : Expr α} {m n bound : Nat} (left : DegreeBelow v base m)
      (natural : NaturalExponent exponent n) (fits : n * (m - 1) < bound) :
      DegreeBelow v (binary .pow base exponent) bound

variable {epsilon : α} {v : String} {tree tree' raw lhs rhs exponent : Expr α} {n m bound : Nat}

theorem DegreeBelow.mono {more : Nat} (below : tree.DegreeBelow v bound) (le : bound ≤ more) :
    tree.DegreeBelow v more := by
  induction below generalizing more with
  | number fits => exact .number (fits.imp_right fun positive => by omega)
  | itself fits => exact .itself (by omega)
  | other differs fits => exact .other differs (by omega)
  | sign op _ inner => exact .sign op (inner le)
  | sum _ _ left right => exact .sum (left le) (right le)
  | difference _ _ left right => exact .difference (left le) (right le)
  | product left right fits => exact .product left right (by omega)
  | power left natural fits => exact .power left natural (by omega)

theorem HasDegree.degree_below {degree : Nat} (has : tree.HasDegree v degree) :
    tree.DegreeBelow v (degree + 1) := by
  induction has with
  | number => exact .number (.inr (Nat.succ_pos _))
  | itself => exact .itself (by omega)
  | other differs => exact .other differs (Nat.succ_pos _)
  | sign op _ inner => exact .sign op inner
  | sum _ _ left right => exact .sum (left.mono (by omega)) (right.mono (by omega))
  | difference _ _ left right => exact .difference (left.mono (by omega)) (right.mono (by omega))
  | product _ _ left right => exact .product left right (by omega)
  | power _ natural left => exact .power left (.number natural) (Nat.lt_succ_self _)

theorem DegreeBelow.vanishes (below : tree.DegreeBelow v bound) (zero : bound = 0) :
    tree.Vanishes := by
  induction below with
  | number fits => exact .number (fits.resolve_right (by omega))
  | itself fits | other _ fits | power _ _ fits => omega
  | sign op _ inner => exact .sign op (inner zero)
  | sum _ _ left right => exact .sum (left zero) (right zero)
  | difference _ _ left right => exact .difference (left zero) (right zero)
  | @product lhs rhs m n bound below below' fits left right =>
      by_cases none : m = 0
      · exact .leftFactor (left none) _
      · exact .rightFactor _ (right (by omega))

theorem DegreeBelow.marks {allowed : String → Prop} (below : tree.DegreeBelow v bound) :
    tree.Marks allowed := by
  induction below with
  | number | itself | other => trivial
  | sign op _ inner => exact inner
  | sum _ _ left right | difference _ _ left right | product _ _ _ left right =>
      exact ⟨left, right⟩
  | power _ natural _ left =>
      refine ⟨left, ?_⟩
      cases natural <;> simp [Marks]

theorem NaturalExponent.constant (natural : NaturalExponent exponent n) :
    exponent.isConstant v = true := by
  cases natural <;> simp [isConstant]

end Expr

section

variable {epsilon : α} {v : String} {tree tree' exponent : Expr α} {n bound : Nat}

theorem degree_below_num {value : α} :
    (Expr.num value).DegreeBelow v bound ↔ IsZero value ∨ 0 < bound := by
  constructor
  · intro below
    cases below with
    | number fits => exact fits
  · exact .number

section

variable (naturals : Naturals epsilon)

include naturals

theorem Expr.NaturalExponent.rewrites (natural : exponent.NaturalExponent n)
    (rewrites : Rewrites epsilon exponent tree) : tree.NaturalExponent n := by
  induction rewrites with
  | refl => exact natural
  | trans _ _ first second => exact second (first natural)
  | binary op left right =>
      cases natural with
      | lowered natural =>
          rw [left.of_number, right.of_number]
          exact .lowered natural
  | folded folds =>
      cases natural with
      | lowered natural =>
          obtain ⟨b, difference, natural'⟩ := naturals.pred natural
          cases difference.symm.trans (Except.ok.inj folds)
          exact .number natural'
  | binaryRule rule =>
      cases natural with
      | lowered natural =>
          cases rule with
          | minusZero zero => cases naturals.near_zero naturals.one zero
          | zeroMinus zero => cases naturals.near_zero natural zero
          | minusSame same =>
              cases naturals.same_one natural same
              exact .number naturals.zero
  | signed | marked | call | signRule | callRule => cases natural

theorem Expr.NaturalExponent.run (natural : exponent.NaturalExponent n) :
    ∃ value sweeps, Simplify.run epsilon exponent = .ok ⟨.num value, sweeps⟩ ∧
      IsNatural value n := by
  cases natural with
  | @number value n natural =>
      have folded : foldConstants (Expr.num value) = .ok ⟨.num value, false⟩ := rfl
      obtain ⟨sweeps, done⟩ : ∃ sweeps, Simplify.run epsilon _ = .ok ⟨_, sweeps⟩ :=
        run_of_fold folded
      exact ⟨value, sweeps, done, natural⟩
  | @lowered value n natural =>
      obtain ⟨b, difference, natural'⟩ := naturals.pred natural
      have folded : foldConstants (Expr.binary .sub (.num value) (.num (ofNat 1))) =
          .ok ⟨.num b, true⟩ := by
        simp [foldConstants, requireChild, isMissing, foldNode, BinaryOp.fold, difference]
      obtain ⟨sweeps, done⟩ : ∃ sweeps, Simplify.run epsilon _ = .ok ⟨_, sweeps⟩ :=
        run_of_fold folded
      exact ⟨b, sweeps, done, natural'⟩

end

variable (zeros : Zeros epsilon)

include zeros

theorem degree_positive_of_one (below : tree.DegreeBelow v bound)
    (one : isValue epsilon tree 1 = true) : 0 < bound := by
  cases tree with
  | num value =>
      refine (degree_below_num.1 below).resolve_left fun zero => ?_
      have apart : isValue epsilon (.num value) 1 = false := zeros.not_near_one zero
      rw [apart] at one
      cases one
  | _ => cases one

theorem degree_below_fold {op : BinaryOp} {a b value : α} (folds : op.fold a b = .ok (some value))
    (below : (Expr.binary op (.num a) (.num b)).DegreeBelow v bound) :
    (Expr.num value).DegreeBelow v bound := by
  rw [degree_below_num]
  cases below with
  | sum left right =>
      rcases degree_below_num.1 left, degree_below_num.1 right with
        ⟨zero | positive, zero' | positive⟩
      · exact .inl (zeros.add zero zero' (Except.ok.inj folds))
      all_goals exact .inr positive
  | difference left right =>
      rcases degree_below_num.1 left, degree_below_num.1 right with
        ⟨zero | positive, zero' | positive⟩
      · exact .inl (zeros.sub zero zero' (Except.ok.inj folds))
      all_goals exact .inr positive
  | product left right fits =>
      rcases degree_below_num.1 left, degree_below_num.1 right with
        ⟨zero | positive, zero' | positive'⟩
      · exact .inl (zeros.zero_mul zero (Except.ok.inj folds))
      · exact .inl (zeros.zero_mul zero (Except.ok.inj folds))
      · exact .inl (zeros.mul_zero zero' (Except.ok.inj folds))
      · exact .inr (by omega)
  | power left natural fits => exact .inr (by omega)

variable (naturals : Naturals epsilon)

include naturals

theorem Expr.DegreeBelow.binary_rule {op : BinaryOp} {lhs rhs : Expr α}
    (below : (Expr.binary op lhs rhs).DegreeBelow v bound)
    (rule : BinaryRule epsilon op lhs rhs tree) : tree.DegreeBelow v bound := by
  cases below with
  | sum left right =>
      cases rule with
      | zeroPlus => exact right
      | plusZero => exact left
      | plusSame => exact .product (.number (.inr Nat.one_pos)) left (by omega)
  | difference left right =>
      cases rule with
      | minusZero => exact left
      | zeroMinus => exact .sign _ right
      | minusSame => exact .number (.inl zeros.whole)
  | product left right fits =>
      cases rule with
      | oneTimes one =>
          have positive := degree_positive_of_one zeros left one
          exact right.mono (by omega)
      | timesOne one =>
          have positive := degree_positive_of_one zeros right one
          exact left.mono (by omega)
      | zeroTimes | timesZero => exact .number (.inl zeros.whole)
  | @power _ _ m n _ left natural fits =>
      cases rule with
      | zeroPower => exact .number (.inl zeros.whole)
      | onePower | powerZero => exact .number (.inr (by omega))
      | powerOne one =>
          cases natural with
          | lowered => cases one
          | number natural =>
              cases naturals.near_one natural one
              exact left.mono (by omega)

/-- No rewrite raises the degree above a bound. -/
theorem Expr.DegreeBelow.rewrites (below : tree.DegreeBelow v bound)
    (rewrites : Rewrites epsilon tree tree') : tree'.DegreeBelow v bound := by
  induction rewrites generalizing bound with
  | refl => exact below
  | trans _ _ first second => exact second (first below)
  | binary op left right first second =>
      cases below with
      | sum below below' => exact .sum (first below) (second below')
      | difference below below' => exact .difference (first below) (second below')
      | product below below' fits => exact .product (first below) (second below') fits
      | power below natural fits =>
          exact .power (first below) (natural.rewrites naturals right) fits
  | signed op inner induction =>
      cases below with
      | sign _ below => exact .sign op (induction below)
  | folded folds => exact degree_below_fold zeros folds below
  | binaryRule rule => exact below.binary_rule zeros naturals rule
  | signRule rule =>
      cases below with
      | sign _ below =>
          cases rule with
          | plus => exact below
          | number _ value => exact .number ((degree_below_num.1 below).imp_left zeros.neg)
          | minusMinus =>
              cases below with
              | sign _ below => exact below
          | minusOther =>
              cases below with
              | sign _ below => exact .sign _ below
  | marked | call | callRule => cases below

end

section

variable {v : String} {tree raw : Expr α} {bound : Nat} (zeros : Zeros (tolerance : α))
  (naturals : Naturals (tolerance : α))

include zeros naturals

theorem Expr.DegreeBelow.derivative (below : tree.DegreeBelow v bound)
    (derives : tree.DerivesTo v raw) : raw.DegreeBelow v (bound - 1) := by
  have nothing {bound : Nat} : (Expr.num (ofNat 0 : α)).DegreeBelow v bound :=
    .number (.inl zeros.whole)
  induction below generalizing raw with
  | number =>
      cases derives
      exact nothing
  | itself fits =>
      cases derives with
      | itself => exact .number (.inr (by omega))
      | other differs => exact absurd rfl differs
  | other differs =>
      cases derives with
      | itself => exact absurd rfl differs
      | other => exact nothing
  | sign op _ inner =>
      cases derives with
      | sign _ argument => exact .sign op (inner argument)
  | sum _ _ left right =>
      cases derives with
      | sum first second => exact .sum (left first) (right second)
  | difference _ _ left right =>
      cases derives with
      | difference first second => exact .difference (left first) (right second)
  | product below below' fits left right =>
      cases derives with
      | product first second =>
          exact .sum (.product below (right second) (by omega))
            (.product (left first) below' (by omega))
  | @power base exponent m n bound below natural fits left =>
      cases derives with
      | powerOfZero => exact nothing
      | power _ optimized nonzero first =>
          obtain ⟨value, sweeps, done, natural'⟩ := natural.run naturals
          have settled : exponent.optimize = .ok (.num value) := by simp [optimize, done]
          cases optimized.symm.trans settled
          cases n with
          | zero =>
              have zero : (Expr.num value).isZero = true :=
                zeros.near_zero (naturals.is_zero natural')
              rw [nonzero] at zero
              cases zero
          | succ n =>
              have lowered : (binary .mul (num value) (binary .pow base
                  (binary .sub (num value) (num (ofNat 1))))).DegreeBelow v (n * (m - 1) + 1) :=
                .product (.number (.inr Nat.one_pos))
                  (.power below (.lowered natural') (Nat.lt_succ_self _)) (by omega)
              rw [Nat.succ_mul] at fits
              exact .product lowered (left first) (by omega)
      | exponential varying | generalPower varying =>
          rw [natural.constant] at varying
          cases varying

/-- The next derivative of a series: its degree is below a lower bound, and it is a zero once
the bound is down to zero. -/
theorem Expr.DegreeBelow.derivative_completes (below : tree.DegreeBelow v bound)
    (built : tree.Built) :
    Completes (tree.derivative v)
      (fun next => next.Built ∧ next.height ≤ 4 * tree.height ∧ next.DegreeBelow v (bound - 1) ∧
        (bound ≤ 1 → ∃ zero, next = .num zero ∧ IsZero zero)) (4 * tree.height) := by
  have marks : tree.Marks fun _ => True := below.marks
  refine (Expr.derivative_completes built marks).imp fun next ⟨raw, derives, optimized⟩ => ?_
  have rewrites := optimize_rewrites optimized
  have builtRaw := derives.built built
  have lowered := below.derivative zeros naturals derives
  refine ⟨rewrites.built builtRaw, Nat.le_trans rewrites.height_le derives.height_le,
    lowered.rewrites zeros naturals rewrites, fun last => ?_⟩
  obtain ⟨zero, sweeps, done, isZero⟩ :=
    run_of_vanishing zeros (lowered.vanishes (by omega)) builtRaw.valid
  have vanished : raw.optimize = .ok (.num zero) := by simp [optimize, done]
  cases optimized.symm.trans vanished
  exact ⟨zero, rfl, isZero⟩

theorem Expr.DegreeBelow.derivatives_complete {left : Nat} (below : tree.DegreeBelow v bound)
    (built : tree.Built) (enough : bound ≤ left + 1) :
    Completes (derivativesFrom v (left + 1) tree)
      (fun trees => trees.length = left + 2 ∧
        ∃ zero, trees[left + 1]? = some (.num zero) ∧ IsZero zero)
      (4 ^ (left + 1) * tree.height) := by
  induction left generalizing tree bound with
  | zero =>
      have step := below.derivative_completes zeros naturals built
      refine step.bind fun next ⟨_, _, _, vanishes⟩ => ?_
      obtain ⟨zero, rfl, isZero⟩ := vanishes enough
      exact completes_ok ⟨rfl, zero, rfl, isZero⟩
  | succ left induction =>
      have step := below.derivative_completes zeros naturals built
      have wide : 4 * tree.height ≤ 4 ^ (left + 2) * tree.height :=
        Nat.mul_le_mul_right _ (Nat.le_self_pow (by omega) 4)
      refine (step.mono wide).bind fun next ⟨builtNext, low, lowered, _⟩ => ?_
      have rest := induction lowered builtNext (by omega)
      have deep := rest.mono (four_pow_mul_le low (left + 1))
      refine deep.bind fun trees ⟨count, zero, last, isZero⟩ => ?_
      exact completes_ok ⟨congrArg Nat.succ count, zero, last, isZero⟩

end

/-- A derivative of an order beyond the degree of a polynomial is a zero. The other case is a
tree so deep, for this order, that sweeps run out. -/
theorem Expr.derivatives_beyond_degree {tree : Expr Float} {v : String} {degree order : Nat}
    (polynomial : tree.HasDegree v degree) (built : tree.Built) (beyond : degree < order) :
    (∃ trees, tree.derivatives order v = .ok trees ∧ trees.length = order + 1 ∧
      ∃ zero : Float, trees[order]? = some (num zero) ∧ Scalar.same zero 0 = true) ∨
    (tree.derivatives order v = .error (.simplification (.unsettled sweepLimit)) ∧
      sweepLimit ≤ 4 ^ order * tree.depth) := by
  obtain ⟨left, rfl⟩ : ∃ left, order = left + 1 := ⟨order - 1, by omega⟩
  have series : tree.derivatives (left + 1 : Nat) v = derivativesFrom v (left + 1) tree := by
    rw [derivatives, if_neg (by omega), whole_of_built built]
    rfl
  rw [series, depth_eq_height]
  exact polynomial.degree_below.derivatives_complete Decimal.zeros Decimal.naturals built
    (by omega)

/-- The fifth derivative of `(2*x - y)^3 * x` by `x` is a zero. -/
theorem Expr.derivatives_beyond_degree_of_quartic :
    ∃ trees, (binary .mul (binary .pow (binary .sub (binary .mul (num (2 : Float)) (var "x"))
        (var "y")) (num 3)) (var "x")).derivatives (5 : Nat) "x" = .ok trees ∧ trees.length = 6 ∧
      ∃ zero : Float, trees[5]? = some (num zero) ∧ Scalar.same zero 0 = true := by
  have three : IsNatural (3 : Float) 3 := ⟨by decide +kernel, by decide⟩
  have quartic : HasDegree "x" (binary .mul (binary .pow (binary .sub
      (binary .mul (num (2 : Float)) (var "x")) (var "y")) (num 3)) (var "x"))
        (3 * max (0 + 1) 0 + 1) :=
    .product (.power (.difference (.product (.number 2) .itself) (.other (by decide))) three)
      .itself
  have beyond : 3 * max (0 + 1) 0 + 1 < 5 := by decide
  rcases derivatives_beyond_degree quartic (by simp [BinaryOp.isKnown]) beyond with done | ⟨-, deep⟩
  · exact done
  · simp [depth_eq_height, height, sweepLimit] at deep

end Fluxion
