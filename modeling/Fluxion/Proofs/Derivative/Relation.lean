import Fluxion.Derivative.Rules
import Fluxion.Notation.Infix
import Fluxion.Proofs.Expr.Height
import Fluxion.Proofs.Simplify.Normal
import Fluxion.Proofs.Simplify.Settling

/-!
The rules of differentiation as a relation between a tree and its derivative. On a
built tree whose markers stand over calls the computation gives a tree that is so
related, whatever steps were recorded before. The one fault that is left is that of
an exponent on which optimization does not settle, and it asks for a tree as deep as
the limit on sweeps.
-/

namespace Fluxion

open Outcome Simplify

variable {α : Type}

namespace Expr

/-- Every chain of markers in the tree ends in a call whose function is allowed. -/
def Marks (allowed : String → Prop) : Expr α → Prop
  | missing | num _ | var _ => True
  | binary _ lhs rhs => lhs.Marks allowed ∧ rhs.Marks allowed
  | signed _ operand => operand.Marks allowed
  | marked _ operand =>
      (∃ name arg, operand.underMarkers = call name arg ∧ allowed name) ∧ operand.Marks allowed
  | call _ arg => arg.Marks allowed

theorem Built.under_markers {tree : Expr α} (built : tree.Built) : tree.underMarkers.Built := by
  induction tree with
  | marked op operand inner =>
      cases op with
      | prime => exact inner ((built_marked _ _).1 built).2
      | other symbol => exact built
  | _ => exact built

theorem Built.child {part tree : Expr α} (built : tree.Built) (child : part ∈ tree.children) :
    part.Built := by
  cases tree with
  | missing | num | var => simp [children] at child
  | binary op lhs rhs =>
      obtain ⟨-, left, right⟩ := (built_binary _ _ _).1 built
      simp only [children, List.mem_cons, List.not_mem_nil, or_false] at child
      rcases child with rfl | rfl
      · exact left
      · exact right
  | signed op operand =>
      cases List.mem_singleton.1 child
      exact ((built_signed _ _).1 built).2
  | marked op operand =>
      cases List.mem_singleton.1 child
      exact ((built_marked _ _).1 built).2
  | call name arg =>
      cases List.mem_singleton.1 child
      exact ((built_call _ _).1 built).2

theorem height_child {part tree : Expr α} (child : part ∈ tree.children) :
    part.height ≤ tree.height := by
  cases tree with
  | missing | num | var => simp [children] at child
  | binary op lhs rhs =>
      simp only [children, List.mem_cons, List.not_mem_nil, or_false] at child
      rcases child with rfl | rfl <;> simp only [height] <;> omega
  | signed op operand | marked op operand | call name operand =>
      cases List.mem_singleton.1 child
      exact Nat.le_succ _

theorem Within.built {node tree : Expr α} (within : node.Within tree) (built : tree.Built) :
    node.Built := by
  induction within with
  | root => exact built
  | under child within inner => exact inner (built.child child)

theorem Within.height_le {node tree : Expr α} (within : node.Within tree) :
    node.height ≤ tree.height := by
  induction within with
  | root => exact Nat.le_refl _
  | under child within inner => exact Nat.le_trans inner (height_child child)

variable [Scalar α]

theorem latex_of_built {tree : Expr α} (built : tree.Built) (floor : Int) :
    ∃ text, tree.latexAt floor = .ok text := by
  induction tree generalizing floor with
  | missing => exact absurd built built_missing
  | num value => exact ⟨_, rfl⟩
  | var name => exact ⟨_, rfl⟩
  | binary op lhs rhs left right =>
      obtain ⟨known, builtLeft, builtRight⟩ := (built_binary _ _ _).1 built
      obtain ⟨priority, hasPriority⟩ : ∃ priority, op.priority = .ok priority := by
        cases op with
        | other symbol => cases known
        | _ => exact ⟨_, rfl⟩
      obtain ⟨freeLeft, writtenFreeLeft⟩ := left builtLeft freePriority
      obtain ⟨tightLeft, writtenTightLeft⟩ := left builtLeft tightPriority
      obtain ⟨plainLeft, writtenLeft⟩ := left builtLeft priority
      obtain ⟨freeRight, writtenFreeRight⟩ := right builtRight freePriority
      obtain ⟨plainRight, writtenRight⟩ := right builtRight (priority + 1)
      simp only [latexAt, hasPriority, ok_bind]
      cases op <;>
        simp [writtenFreeLeft, writtenTightLeft, writtenLeft, writtenFreeRight, writtenRight]
  | signed op operand inner =>
      obtain ⟨text, written⟩ := inner ((built_signed _ _).1 built).2 tightPriority
      simp [latexAt, written]
  | marked op operand inner =>
      obtain ⟨text, written⟩ := inner ((built_marked _ _).1 built).2 tightPriority
      simp [latexAt, written]
  | call name arg inner =>
      obtain ⟨text, written⟩ := inner ((built_call _ _).1 built).2 freePriority
      simp [latexAt, written]

theorem infix_of_built {tree : Expr α} (built : tree.Built) (floor : Int) :
    ∃ text, tree.infixAt floor = .ok text := by
  induction tree generalizing floor with
  | missing => exact absurd built built_missing
  | num value => exact ⟨_, rfl⟩
  | var name => exact ⟨_, rfl⟩
  | binary op lhs rhs left right =>
      obtain ⟨known, builtLeft, builtRight⟩ := (built_binary _ _ _).1 built
      obtain ⟨priority, hasPriority⟩ : ∃ priority, op.priority = .ok priority := by
        cases op with
        | other symbol => cases known
        | _ => exact ⟨_, rfl⟩
      obtain ⟨before, writtenLeft⟩ := left builtLeft priority
      obtain ⟨behind, writtenRight⟩ := right builtRight (priority + 1)
      simp [infixAt, hasPriority, writtenLeft, writtenRight]
  | signed op operand inner =>
      obtain ⟨text, written⟩ := inner ((built_signed _ _).1 built).2 tightPriority
      simp [infixAt, written]
  | marked op operand inner =>
      obtain ⟨text, written⟩ := inner ((built_marked _ _).1 built).2 tightPriority
      simp [infixAt, written]
  | call name arg inner =>
      obtain ⟨text, written⟩ := inner ((built_call _ _).1 built).2 freePriority
      simp [infixAt, written]

/-- `DerivesTo v tree derivative`: the rules give this derivative with respect to `v`. -/
inductive DerivesTo (v : String) : Expr α → Expr α → Prop
  | number (value : α) : DerivesTo v (num value) (num (Scalar.ofNat 0))
  | itself : DerivesTo v (var v) (num (Scalar.ofNat 1))
  | other {name : String} (differs : name ≠ v) : DerivesTo v (var name) (num (Scalar.ofNat 0))
  | known {name : String} {f : NamedFunction} {arg inner : Expr α}
      (named : NamedFunction.ofName? name = some f) (argument : DerivesTo v arg inner) :
      DerivesTo v (call name arg) (binary .mul (f.slope arg) inner)
  | unknown {name : String} {arg inner : Expr α} (nameless : NamedFunction.ofName? name = none)
      (argument : DerivesTo v arg inner) :
      DerivesTo v (call name arg) (binary .mul (marked .prime (call name arg)) inner)
  | marker {name : String} {operand arg inner : Expr α}
      (under : operand.underMarkers = call name arg) (argument : DerivesTo v arg inner) :
      DerivesTo v (marked .prime operand)
        (binary .mul (marked .prime (marked .prime operand)) inner)
  | sign (op : SignOp) {operand inner : Expr α} (argument : DerivesTo v operand inner) :
      DerivesTo v (signed op operand) (signed op inner)
  | sum {lhs rhs left right : Expr α} (first : DerivesTo v lhs left)
      (second : DerivesTo v rhs right) :
      DerivesTo v (binary .add lhs rhs) (binary .add left right)
  | difference {lhs rhs left right : Expr α} (first : DerivesTo v lhs left)
      (second : DerivesTo v rhs right) :
      DerivesTo v (binary .sub lhs rhs) (binary .sub left right)
  | product {lhs rhs left right : Expr α} (first : DerivesTo v lhs left)
      (second : DerivesTo v rhs right) :
      DerivesTo v (binary .mul lhs rhs)
        (binary .add (binary .mul lhs right) (binary .mul left rhs))
  | quotient {lhs rhs left right : Expr α} (first : DerivesTo v lhs left)
      (second : DerivesTo v rhs right) :
      DerivesTo v (binary .div lhs rhs)
        (binary .div (binary .sub (binary .mul left rhs) (binary .mul lhs right))
          (binary .pow rhs (num (Scalar.ofNat 2))))
  | powerOfZero {lhs rhs n : Expr α} (constant : rhs.isConstant v = true)
      (optimized : rhs.optimize = .ok n) (zero : n.isZero = true) :
      DerivesTo v (binary .pow lhs rhs) (num (Scalar.ofNat 0))
  | power {lhs rhs n left : Expr α} (constant : rhs.isConstant v = true)
      (optimized : rhs.optimize = .ok n) (nonzero : n.isZero = false)
      (first : DerivesTo v lhs left) :
      DerivesTo v (binary .pow lhs rhs)
        (binary .mul
          (binary .mul n (binary .pow lhs (binary .sub n (num (Scalar.ofNat 1))))) left)
  | exponential {lhs rhs right : Expr α} (varying : rhs.isConstant v = false)
      (constant : lhs.isConstant v = true) (second : DerivesTo v rhs right) :
      DerivesTo v (binary .pow lhs rhs)
        (binary .mul (binary .mul (binary .pow lhs rhs) (call "ln" lhs)) right)
  | generalPower {lhs rhs left right : Expr α} (varying : rhs.isConstant v = false)
      (varyingBase : lhs.isConstant v = false) (first : DerivesTo v lhs left)
      (second : DerivesTo v rhs right) :
      DerivesTo v (binary .pow lhs rhs)
        (binary .mul (binary .pow lhs rhs)
          (binary .add (binary .div (binary .mul left rhs) lhs)
            (binary .mul right (call "ln" lhs))))

theorem slope_built {f : NamedFunction} {arg : Expr α} (built : arg.Built) :
    (f.slope arg).Built := by
  cases f <;> simp [NamedFunction.slope, BinaryOp.isKnown, SignOp.isKnown, built]

theorem optimize_rewrites {tree optimized : Expr α} (done : tree.optimize = .ok optimized) :
    Rewrites Scalar.tolerance tree optimized := by
  simp only [optimize, bind_eq_ok, pure_eq_ok] at done
  obtain ⟨result, ran, rfl⟩ := done
  exact run_rewrites ran

theorem DerivesTo.built {v : String} {tree derivative : Expr α}
    (derives : DerivesTo v tree derivative) (built : tree.Built) : derivative.Built := by
  induction derives with
  | number | itself | other | powerOfZero => exact built_num _
  | known named argument inner =>
      rw [built_call] at built
      simp [BinaryOp.isKnown, slope_built built.2, inner built.2]
  | unknown nameless argument inner =>
      have arg := ((built_call _ _).1 built).2
      simp [BinaryOp.isKnown, MarkOp.isKnown, built, inner arg]
  | marker under argument inner =>
      have operand := ((built_marked _ _).1 built).2
      have call := operand.under_markers
      rw [under, built_call] at call
      simp [BinaryOp.isKnown, MarkOp.isKnown, operand, inner call.2]
  | sign op argument inner =>
      rw [built_signed] at built ⊢
      exact ⟨built.1, inner built.2⟩
  | sum first second left right | difference first second left right =>
      rw [built_binary] at built ⊢
      exact ⟨rfl, left built.2.1, right built.2.2⟩
  | product first second left right =>
      rw [built_binary] at built
      simp [BinaryOp.isKnown, built, left built.2.1, right built.2.2]
  | quotient first second left right =>
      rw [built_binary] at built
      simp [BinaryOp.isKnown, built, left built.2.1, right built.2.2]
  | power constant optimized nonzero first left =>
      rw [built_binary] at built
      have exponent := (optimize_rewrites optimized).built built.2.2
      simp [BinaryOp.isKnown, built, exponent, left built.2.1]
  | exponential varying constant second right =>
      have parts := (built_binary _ _ _).1 built
      simp [BinaryOp.isKnown, built, parts, right parts.2.2]
  | generalPower varying varyingBase first second left right =>
      have parts := (built_binary _ _ _).1 built
      simp [BinaryOp.isKnown, built, parts, left parts.2.1, right parts.2.2]

end Expr

variable [Scalar α]

/-- Every run of the computation gives a result with the property or ends in a fault
with the other property. -/
def Differentiation.Gives {β : Type} (action : Differentiation β) (result : β → Prop)
    (failure : Fault → Prop) : Prop :=
  ∀ steps, (∃ value after, action steps = .ok value after ∧ result value) ∨
    ∃ fault after, action steps = .error fault after ∧ failure fault

namespace Differentiation

variable {β γ : Type} {result : β → Prop} {next : γ → Prop} {failure : Fault → Prop}

theorem Gives.bind {action : Differentiation β} {rest : β → Differentiation γ}
    (gives : action.Gives result failure)
    (continues : ∀ value, result value → (rest value).Gives next failure) :
    (action >>= rest).Gives next failure := by
  intro steps
  show (∃ value after, EStateM.bind action rest steps = .ok value after ∧ _) ∨
    ∃ fault after, EStateM.bind action rest steps = .error fault after ∧ _
  unfold EStateM.bind
  rcases gives steps with ⟨value, after, done, holds⟩ | ⟨fault, after, failed, why⟩
  · rw [done]
    exact continues value holds after
  · rw [failed]
    exact .inr ⟨fault, after, rfl, why⟩

theorem lift_gives {outcome : Except Fault β}
    (decided : (∃ value, outcome = .ok value ∧ result value) ∨
      ∃ fault, outcome = .error fault ∧ failure fault) :
    (lift outcome).Gives result failure := by
  intro steps
  rcases decided with ⟨value, rfl, holds⟩ | ⟨fault, rfl, why⟩
  · exact .inl ⟨value, steps, rfl, holds⟩
  · exact .inr ⟨fault, steps, rfl, why⟩

theorem lift_ok_gives {outcome : Except Fault β} {value : β} (done : outcome = .ok value) :
    (lift outcome).Gives (· = value) failure :=
  lift_gives (.inl ⟨value, done, rfl⟩)

theorem record_gives {rule : Rule} {tree derivative : Expr α} (built : tree.Built)
    (builtDerivative : derivative.Built) :
    (record rule tree derivative).Gives (· = derivative) failure := by
  obtain ⟨before, writtenBefore⟩ := Expr.latex_of_built built freePriority
  obtain ⟨after, writtenAfter⟩ := Expr.latex_of_built builtDerivative freePriority
  intro steps
  left
  refine ⟨derivative, steps.push ⟨steps.size, rule, before, after⟩, ?_, rfl⟩
  unfold record Expr.toLatex
  rw [writtenBefore, writtenAfter]
  rfl

theorem record_derives {v : String} {rule : Rule} {tree derivative : Expr α}
    (derives : tree.DerivesTo v derivative) (built : tree.Built) :
    (record rule tree derivative).Gives (tree.DerivesTo v) failure := by
  intro steps
  rcases record_gives built (derives.built built) steps with
    ⟨value, after, done, rfl⟩ | failed
  · exact .inl ⟨value, after, done, derives⟩
  · exact .inr failed

end Differentiation

/-- The outcome is a value with the property, or sweeps have run out on a tree that is high
enough for it. -/
def Completes {β : Type} (outcome : Except Fault β) (result : β → Prop) (limit : Nat) : Prop :=
  (∃ value, outcome = .ok value ∧ result value) ∨
    outcome = .error (.simplification (.unsettled sweepLimit)) ∧ sweepLimit ≤ limit

section

variable {β γ : Type} {outcome : Except Fault β} {result : β → Prop} {limit : Nat}

theorem Completes.mono {more : Nat} (completes : Completes outcome result limit)
    (le : limit ≤ more) : Completes outcome result more :=
  completes.imp_right fun unsettled => ⟨unsettled.1, Nat.le_trans unsettled.2 le⟩

theorem Completes.imp {result' : β → Prop} (completes : Completes outcome result limit)
    (implies : ∀ value, result value → result' value) : Completes outcome result' limit :=
  completes.imp_left fun ⟨value, done, holds⟩ => ⟨value, done, implies value holds⟩

theorem Completes.bind {rest : β → Except Fault γ} {next : γ → Prop}
    (completes : Completes outcome result limit)
    (continues : ∀ value, result value → Completes (rest value) next limit) :
    Completes (outcome >>= rest) next limit := by
  rcases completes with ⟨value, rfl, holds⟩ | ⟨rfl, deep⟩
  · exact continues value holds
  · exact .inr ⟨rfl, deep⟩

theorem completes_ok {value : β} (holds : result value) :
    Completes (.ok value : Except Fault β) result limit :=
  .inl ⟨value, rfl, holds⟩

end

namespace Expr

open Differentiation

def Unsettled (height : Nat) (fault : Fault) : Prop :=
  fault = .simplification (.unsettled sweepLimit) ∧ sweepLimit ≤ height

omit [Scalar α] in
theorem whole_of_built {tree : Expr α} (built : tree.Built) : tree.whole = .ok tree := by
  rw [whole_eq, if_pos built.whole]

omit [Scalar α] in
theorem eq_of_whole {tree result : Expr α} (isWhole : tree.whole = .ok result) : tree = result := by
  rw [whole_eq] at isWhole
  split at isWhole
  · exact Except.ok.inj isWhole
  · cases isWhole

theorem optimize_of_built {tree : Expr α} (built : tree.Built) :
    (∃ optimized, tree.optimize = .ok optimized) ∨
      ∃ fault, tree.optimize = .error fault ∧ Unsettled tree.height fault := by
  rcases @run_of_built α _ Scalar.tolerance tree built with ⟨result, done⟩ | ⟨deep, failed⟩
  · exact .inl ⟨result.tree, by rw [optimize, done]; rfl⟩
  · rw [depth_eq_height] at deep
    exact .inr ⟨_, by rw [optimize, failed]; rfl, rfl, deep⟩

variable {v : String} {failure : Fault → Prop}

omit [Scalar α] in
/-- A tree is only looked through for what is missing, and in a built one nothing is. -/
theorem discard_whole_gives {tree : Expr α} (built : tree.Built) :
    (lift (discard tree.whole)).Gives (fun _ => True) failure :=
  lift_gives (.inl ⟨(), by rw [whole_of_built built]; rfl, trivial⟩)

def ExponentsFail (failure : Fault → Prop) (tree : Expr α) : Prop :=
  ∀ base exponent fault, (binary .pow base exponent).Within tree →
    exponent.optimize = .error fault → failure fault

theorem ExponentsFail.child {part tree : Expr α} (exponents : ExponentsFail failure tree)
    (child : part ∈ tree.children) : ExponentsFail failure part :=
  fun base exponent fault within failed => exponents base exponent fault (.under child within) failed

theorem differentiate_power_gives {lhs rhs : Expr α} (built : (binary .pow lhs rhs).Built)
    (first : (lhs.differentiate v).Gives (lhs.DerivesTo v) failure)
    (second : (rhs.differentiate v).Gives (rhs.DerivesTo v) failure)
    (exponents : ExponentsFail failure (binary .pow lhs rhs)) :
    ((binary .pow lhs rhs).differentiate v).Gives ((binary .pow lhs rhs).DerivesTo v)
      failure := by
  obtain ⟨-, builtLeft, builtRight⟩ := (built_binary _ _ _).1 built
  rw [differentiate]
  by_cases constant : rhs.isConstant v = true
  · rw [if_pos constant]
    have exponent : (lift (do (← rhs.whole).optimize)).Gives (rhs.optimize = .ok ·) failure := by
      rw [whole_of_built builtRight]
      apply lift_gives
      cases optimized : rhs.optimize with
      | ok n => exact .inl ⟨n, optimized, rfl⟩
      | error fault => exact .inr ⟨fault, optimized, exponents lhs rhs fault .root optimized⟩
    refine exponent.bind fun n optimized => ?_
    by_cases zero : n.isZero = true
    · rw [if_pos zero]
      exact record_derives (.powerOfZero constant optimized zero) built
    · rw [if_neg zero]
      refine (discard_whole_gives builtLeft).bind fun _ _ => ?_
      refine first.bind fun left derives => ?_
      exact record_derives (.power constant optimized (by simpa using zero) derives) built
  · rw [if_neg constant]
    have varying : rhs.isConstant v = false := by simpa using constant
    refine (discard_whole_gives builtLeft).bind fun _ _ => ?_
    refine (discard_whole_gives builtRight).bind fun _ _ => ?_
    by_cases constantBase : lhs.isConstant v = true
    · rw [if_pos constantBase]
      refine second.bind fun right derives => ?_
      exact record_derives (.exponential varying constantBase derives) built
    · rw [if_neg constantBase]
      refine first.bind fun left derivesLeft => ?_
      refine second.bind fun right derivesRight => ?_
      exact record_derives
        (.generalPower varying (by simpa using constantBase) derivesLeft derivesRight) built

/-- The derivative of a tree, and of the argument of a call under its markers. Nothing but
the optimization of an exponent can fail. -/
theorem differentiate_gives_of_exponents {allowed : String → Prop} {tree : Expr α}
    (built : tree.Built) (marks : tree.Marks allowed) (exponents : ExponentsFail failure tree) :
    (tree.differentiate v).Gives (tree.DerivesTo v) failure ∧
      ∀ name arg, tree.underMarkers = call name arg →
        (tree.argumentDerivative v).Gives (arg.DerivesTo v) failure := by
  induction tree with
  | missing => exact absurd built built_missing
  | num value =>
      refine ⟨?_, fun _ _ under => by cases under⟩
      rw [differentiate]
      exact record_derives (.number value) built
  | var name =>
      refine ⟨?_, fun _ _ under => by cases under⟩
      rw [differentiate]
      split
      · rename_i same
        subst same
        exact record_derives .itself built
      · rename_i differs
        exact record_derives (.other differs) built
  | binary op lhs rhs left right =>
      refine ⟨?_, fun _ _ under => by cases under⟩
      obtain ⟨known, builtLeft, builtRight⟩ := (built_binary _ _ _).1 built
      have first := (left builtLeft marks.1 (exponents.child (by simp [children]))).1
      have second := (right builtRight marks.2 (exponents.child (by simp [children]))).1
      cases op with
      | add =>
          rw [differentiate]
          refine first.bind fun _ derivesLeft => second.bind fun _ derivesRight => ?_
          exact record_derives (.sum derivesLeft derivesRight) built
      | sub =>
          rw [differentiate]
          refine first.bind fun _ derivesLeft => second.bind fun _ derivesRight => ?_
          exact record_derives (.difference derivesLeft derivesRight) built
      | mul =>
          rw [differentiate]
          refine (discard_whole_gives builtLeft).bind fun _ _ => ?_
          refine second.bind fun _ derivesRight => first.bind fun _ derivesLeft => ?_
          refine (discard_whole_gives builtRight).bind fun _ _ => ?_
          exact record_derives (.product derivesLeft derivesRight) built
      | div =>
          rw [differentiate]
          refine first.bind fun _ derivesLeft => ?_
          refine (discard_whole_gives builtRight).bind fun _ _ => ?_
          refine (discard_whole_gives builtLeft).bind fun _ _ => ?_
          refine second.bind fun _ derivesRight => ?_
          exact record_derives (.quotient derivesLeft derivesRight) built
      | pow =>
          exact differentiate_power_gives built first second exponents
      | other symbol => cases known
  | signed op operand inner =>
      refine ⟨?_, fun _ _ under => by cases under⟩
      obtain ⟨known, builtInner⟩ := (built_signed _ _).1 built
      have argument := (inner builtInner marks (exponents.child (by simp [children]))).1
      rw [differentiate]
      refine argument.bind fun derivative derives => ?_
      have made : makeSigned op derivative = .ok (signed op derivative) :=
        make_signed_ok.2 ⟨(derives.built builtInner).not_missing, known, rfl⟩
      refine (lift_ok_gives made).bind fun _ same => ?_
      rw [same]
      exact record_derives (.sign op derives) built
  | marked op operand inner =>
      obtain ⟨known, builtInner⟩ := (built_marked _ _).1 built
      obtain ⟨⟨name, arg, under, -⟩, marksInner⟩ := marks
      cases op with
      | other symbol => cases known
      | prime =>
          have argument :=
            (inner builtInner marksInner (exponents.child (by simp [children]))).2 name arg under
          constructor
          · rw [differentiate]
            have ends : operand.requireMarkedCall = .ok () := by
              rw [requireMarkedCall, under]
              rfl
            refine (lift_ok_gives ends).bind fun _ _ => ?_
            refine (lift_ok_gives (whole_of_built built)).bind fun outer same => ?_
            refine argument.bind fun _ derives => ?_
            rw [same]
            exact record_derives (.marker under derives) built
          · intro name' arg' under'
            cases under.symm.trans under'
            rw [argumentDerivative]
            exact argument
  | call name arg inner =>
      obtain ⟨named, builtInner⟩ := (built_call _ _).1 built
      have argument := (inner builtInner marks (exponents.child (by simp [children]))).1
      constructor
      · rw [differentiate]
        cases known : NamedFunction.ofName? name with
        | some f =>
            have outer : (do outerDerivative name (← arg.whole)) = .ok (f.slope arg) := by
              rw [whole_of_built builtInner, ok_bind, outerDerivative, known]
              rfl
            refine (lift_ok_gives outer).bind fun _ same => argument.bind fun _ derives => ?_
            rw [same]
            exact record_derives (.known known derives) built
        | none =>
            have made : makeCall name arg = .ok (call name arg) :=
              make_call_ok.2 ⟨named, builtInner.not_missing, rfl⟩
            have outer : (do outerDerivative name (← arg.whole)) =
                .ok (marked .prime (call name arg)) := by
              rw [whole_of_built builtInner, ok_bind, outerDerivative, known]
              simp only [made, ok_bind]
              rfl
            refine (lift_ok_gives outer).bind fun _ same => argument.bind fun _ derives => ?_
            rw [same]
            exact record_derives (.unknown known derives) built
      · intro name' arg' under
        cases under
        rw [argumentDerivative]
        exact argument

theorem exponents_unsettled {tree : Expr α} (built : tree.Built) :
    ExponentsFail (Unsettled tree.height) tree := by
  intro base exponent fault within failed
  have low := within.height_le
  simp only [height] at low
  have builtExponent := ((built_binary _ _ _).1 (within.built built)).2.2
  rcases optimize_of_built builtExponent with ⟨n, optimized⟩ | ⟨_, failed', unsettled⟩
  · rw [optimized] at failed
    cases failed
  · cases failed'.symm.trans failed
    exact ⟨unsettled.1, Nat.le_trans unsettled.2 (by omega)⟩

theorem differentiate_gives {allowed : String → Prop} {tree : Expr α} (built : tree.Built)
    (marks : tree.Marks allowed) :
    (tree.differentiate v).Gives (tree.DerivesTo v) (Unsettled tree.height) ∧
      ∀ name arg, tree.underMarkers = call name arg →
        (tree.argumentDerivative v).Gives (arg.DerivesTo v) (Unsettled tree.height) :=
  differentiate_gives_of_exponents built marks (exponents_unsettled built)

/-- The derivative of a built tree exists and follows the rules, unless an exponent in
it is so deep that its sweeps run out. -/
theorem raw_derivative_of_built {allowed : String → Prop} {tree : Expr α} (built : tree.Built)
    (marks : tree.Marks allowed) :
    (∃ derivative, tree.rawDerivative v = .ok derivative ∧ tree.DerivesTo v derivative) ∨
      sweepLimit ≤ tree.depth ∧
        tree.rawDerivative v = .error (.simplification (.unsettled sweepLimit)) := by
  unfold rawDerivative EStateM.run
  rcases (differentiate_gives built marks).1 #[] with
    ⟨derivative, after, done, derives⟩ | ⟨fault, after, failed, rfl, deep⟩
  · rw [done]
    exact .inl ⟨derivative, rfl, derives⟩
  · rw [failed, depth_eq_height]
    exact .inr ⟨deep, rfl⟩

theorem optimize_completes {tree : Expr α} (built : tree.Built) :
    Completes tree.optimize (tree.optimize = .ok ·) tree.height := by
  rcases optimize_of_built built with ⟨optimized, done⟩ | ⟨fault, failed, rfl, deep⟩
  · exact .inl ⟨optimized, done, done⟩
  · exact .inr ⟨failed, deep⟩

theorem raw_derivative_completes {allowed : String → Prop} {tree : Expr α} (built : tree.Built)
    (marks : tree.Marks allowed) :
    Completes (tree.rawDerivative v) (tree.DerivesTo v) tree.height := by
  rcases raw_derivative_of_built (v := v) built marks with done | ⟨deep, failed⟩
  · exact .inl done
  · rw [depth_eq_height] at deep
    exact .inr ⟨failed, deep⟩

end Expr

end Fluxion
