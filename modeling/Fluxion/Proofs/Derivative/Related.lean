import Fluxion.Proofs.Derivative.Relation
import Fluxion.Proofs.Simplify.Related

/-!
Two differentiations side by side, of related trees with respect to variables that occur
in the same places. The rules only ask where the variable occurs, whether an exponent is
zero and which function is called, so the same rules fire on both trees. Main statement:
related trees have related derivatives, or both fail alike; and with the same fault if their
chains of markers end in calls.
-/

namespace Fluxion

open Outcome Simplify

variable {α : Type}

/-- The same fault, but perhaps for the node that is shown below a marker. -/
def Fault.Alike (fault fault' : Fault) : Prop :=
  fault = fault' ∨ ∃ shown shown', fault = .differentiation (.markerWithoutCall shown) ∧
    fault' = .differentiation (.markerWithoutCall shown')

/-- Whatever steps were recorded before, both give values of which the relation holds, or both
fail alike. -/
def Differentiation.Together {β β' : Type} (related : β → β' → Prop) (first : Differentiation β)
    (second : Differentiation β') : Prop :=
  ∀ steps steps',
    (∃ value value' after after', first steps = .ok value after ∧
      second steps' = .ok value' after' ∧ related value value') ∨
    ∃ fault fault' after after', first steps = .error fault after ∧
      second steps' = .error fault' after' ∧ fault.Alike fault'

namespace Differentiation

section

variable {β β' γ γ' : Type} {related : β → β' → Prop} {related' : γ → γ' → Prop}

theorem Together.bind {first : Differentiation β} {second : Differentiation β'}
    {next : β → Differentiation γ} {next' : β' → Differentiation γ'}
    (together : first.Together related second)
    (continues : ∀ value value', related value value' →
      (next value).Together related' (next' value')) :
    (first >>= next).Together related' (second >>= next') := by
  intro steps steps'
  rcases together steps steps' with
    ⟨value, value', after, after', done, done', holds⟩ |
    ⟨fault, fault', after, after', failed, failed', alike⟩
  · rw [bind_ok_of_ok done, bind_ok_of_ok done']
    exact continues value value' holds after after'
  · exact .inr ⟨fault, fault', after, after', bind_error_of_error failed,
      bind_error_of_error failed', alike⟩

theorem lift_together {outcome : Except Fault β} {outcome' : Except Fault β'}
    (agree : Agree related outcome outcome') : (lift outcome).Together related (lift outcome') := by
  intro steps steps'
  cases agree with
  | ok holds => exact .inl ⟨_, _, steps, steps', rfl, rfl, holds⟩
  | error fault => exact .inr ⟨fault, fault, steps, steps', rfl, rfl, .inl rfl⟩

end

end Differentiation

structure Expr.Paired (numbers : α → α → Prop) (names : String → String → Prop)
    (tree tree' : Expr α) : Prop where
  related : tree.Related numbers names tree'
  built : tree.Built

namespace Expr.Paired

variable {numbers : α → α → Prop} {names : String → String → Prop} {tree tree' : Expr α}

theorem binary (op : BinaryOp) {lhs lhs' rhs rhs' : Expr α} (known : op.isKnown = true)
    (left : Paired numbers names lhs lhs') (right : Paired numbers names rhs rhs') :
    Paired numbers names (binary op lhs rhs) (binary op lhs' rhs') :=
  ⟨.binary op left.related right.related, (built_binary _ _ _).2 ⟨known, left.built, right.built⟩⟩

theorem signed {op : SignOp} (known : op.isKnown = true) (inner : Paired numbers names tree tree') :
    Paired numbers names (signed op tree) (signed op tree') :=
  ⟨.signed op inner.related, (built_signed _ _).2 ⟨known, inner.built⟩⟩

theorem prime (inner : Paired numbers names tree tree') :
    Paired numbers names (marked .prime tree) (marked .prime tree') :=
  ⟨.marked .prime inner.related, (built_marked _ _).2 ⟨rfl, inner.built⟩⟩

theorem call {name : String} (named : name ≠ "") (inner : Paired numbers names tree tree') :
    Paired numbers names (call name tree) (call name tree') :=
  ⟨.call name inner.related, (built_call _ _).2 ⟨named, inner.built⟩⟩

theorem whole_agree {odd : String} (alike : AlikeNames odd names)
    (paired : Paired numbers names tree tree') :
    Agree (Paired numbers names) tree.whole tree'.whole := by
  rw [whole_of_built paired.built, whole_of_built (paired.related.built alike paired.built)]
  exact .ok paired

end Expr.Paired

open Fluxion.Expr Differentiation

variable [Scalar α] {numbers : α → α → Prop} {names : String → String → Prop}
variable {v w : String} {tree tree' : Expr α}

section

variable (alikeNumbers : AlikeNumbers Scalar.tolerance numbers)

include alikeNumbers

theorem Expr.paired_whole (n : Nat) :
    Paired numbers names (num (Scalar.ofNat n) : Expr α) (num (Scalar.ofNat n)) :=
  ⟨.num (alikeNumbers.whole n), built_num _⟩

theorem Expr.slope_paired (f : NamedFunction) (paired : Paired numbers names tree tree') :
    Paired numbers names (f.slope tree) (f.slope tree') := by
  have number (n : Nat) : Paired numbers names (num (Scalar.ofNat n)) (num (Scalar.ofNat n)) :=
    paired_whole alikeNumbers n
  cases f with
  | sin => exact .call (by decide) paired
  | cos => exact .signed rfl (.call (by decide) paired)
  | tg =>
      refine .binary .div rfl (number 1) ?_
      exact .binary .pow rfl (.call (by decide) paired) (number 2)
  | ctg =>
      refine .binary .div rfl (.signed rfl (number 1)) ?_
      exact .binary .pow rfl (.call (by decide) paired) (number 2)
  | ln => exact .binary .div rfl (number 1) paired

theorem Expr.outer_derivative_agree {name : String} (named : name ≠ "")
    (paired : Paired numbers names tree tree') :
    Agree (Paired numbers names) (outerDerivative name tree) (outerDerivative name tree') := by
  unfold outerDerivative
  cases NamedFunction.ofName? name with
  | some f => exact agree_pure (slope_paired alikeNumbers f paired)
  | none =>
      have called : Agree (Paired numbers names) (makeCall name tree) (makeCall name tree') := by
        have present := paired.built.not_missing
        rw [make_call_ok.2 ⟨named, present, rfl⟩,
          make_call_ok.2 ⟨named, paired.related.is_missing ▸ present, rfl⟩]
        exact .ok (.call named paired)
      exact called.bind fun _ _ _ calls => agree_pure calls.prime

theorem Expr.is_zero_related (related : Related numbers names tree tree') :
    tree.isZero = tree'.isZero :=
  is_value_related alikeNumbers related 0

end

section

variable (alikeNames : AlikeNames v names)

include alikeNames

theorem Differentiation.record_together {rule : Rule} {derivative derivative' : Expr α}
    (paired : Paired numbers names tree tree')
    (derivatives : Paired numbers names derivative derivative') :
    (record rule tree derivative).Together (Paired numbers names)
      (record rule tree' derivative') := by
  have built' := paired.related.built alikeNames paired.built
  have derivativeBuilt' := derivatives.related.built alikeNames derivatives.built
  have records : (record rule tree derivative).Gives (· = derivative) fun _ => False :=
    record_gives paired.built derivatives.built
  have records' : (record rule tree' derivative').Gives (· = derivative') fun _ => False :=
    record_gives built' derivativeBuilt'
  intro steps steps'
  rcases records steps with ⟨_, after, done, rfl⟩ | ⟨_, _, _, never⟩
  · rcases records' steps' with ⟨_, after', done', rfl⟩ | ⟨_, _, _, never⟩
    · exact .inl ⟨_, _, after, after', done, done', derivatives⟩
    · exact never.elim
  · exact never.elim

omit [Scalar α] in
theorem Differentiation.discard_together (paired : Paired numbers names tree tree') :
    (lift (discard tree.whole)).Together (fun _ _ => True) (lift (discard tree'.whole)) := by
  rw [whole_of_built paired.built, whole_of_built (paired.related.built alikeNames paired.built)]
  exact lift_together (.ok trivial)

variable (alikeNumbers : AlikeNumbers Scalar.tolerance numbers)

include alikeNumbers

/-- A constant exponent does not hold the one name that optimization may tell apart. -/
theorem Expr.exponent_agree (paired : Paired numbers names tree tree')
    (constant : tree.isConstant v = true) :
    Agree (Paired numbers names) (do (← tree.whole).optimize) (do (← tree'.whole).optimize) := by
  refine (paired.whole_agree alikeNames).bind fun exponent exponent' isWhole exponents => ?_
  obtain rfl := eq_of_whole isWhole
  have optimizes :=
    optimize_agree alikeNumbers alikeNames exponents.related (constant_under_ln constant)
  refine optimizes.imp fun n n' optimized related => ⟨related, ?_⟩
  exact (optimize_rewrites optimized).built exponents.built

variable (itself : ∀ {x y}, names x y → (x = v ↔ y = w))

include itself

theorem Expr.power_together {lhs lhs' rhs rhs' : Expr α}
    (left : Paired numbers names lhs lhs') (right : Paired numbers names rhs rhs')
    (first : (lhs.differentiate v).Together (Paired numbers names) (lhs'.differentiate w))
    (second : (rhs.differentiate v).Together (Paired numbers names) (rhs'.differentiate w)) :
    ((binary .pow lhs rhs).differentiate v).Together (Paired numbers names)
      ((binary .pow lhs' rhs').differentiate w) := by
  have node : Paired numbers names (binary .pow lhs rhs) (binary .pow lhs' rhs') :=
    .binary .pow rfl left right
  have number (n : Nat) : Paired numbers names (num (Scalar.ofNat n)) (num (Scalar.ofNat n)) :=
    paired_whole alikeNumbers n
  have logarithm : Paired numbers names (Expr.call "ln" lhs) (Expr.call "ln" lhs') :=
    .call (by decide) left
  rw [differentiate, differentiate, ← right.related.is_constant itself,
    ← left.related.is_constant itself]
  by_cases constant : rhs.isConstant v = true
  · rw [if_pos constant, if_pos constant]
    have exponent := exponent_agree alikeNames alikeNumbers right constant
    refine (lift_together exponent).bind fun n n' exponents => ?_
    rw [← is_zero_related alikeNumbers exponents.related]
    by_cases zero : n.isZero = true
    · rw [if_pos zero, if_pos zero]
      exact record_together alikeNames node (number 0)
    · rw [if_neg zero, if_neg zero]
      refine (discard_together alikeNames left).bind fun _ _ _ => ?_
      refine first.bind fun inner inner' inners => ?_
      have lowered := Paired.binary .pow rfl left (.binary .sub rfl exponents (number 1))
      have outers := Paired.binary .mul rfl exponents lowered
      exact record_together alikeNames node (.binary .mul rfl outers inners)
  · rw [if_neg constant, if_neg constant]
    refine (discard_together alikeNames left).bind fun _ _ _ => ?_
    refine (discard_together alikeNames right).bind fun _ _ _ => ?_
    by_cases constantBase : lhs.isConstant v = true
    · rw [if_pos constantBase, if_pos constantBase]
      refine second.bind fun inner inner' inners => ?_
      have outers := Paired.binary .mul rfl node logarithm
      exact record_together alikeNames node (.binary .mul rfl outers inners)
    · rw [if_neg constantBase, if_neg constantBase]
      refine first.bind fun dLeft dLeft' lefts => second.bind fun dRight dRight' rights => ?_
      have quotient := Paired.binary .div rfl (.binary .mul rfl lefts right) left
      have product := Paired.binary .mul rfl rights logarithm
      exact record_together alikeNames node
        (.binary .mul rfl node (.binary .add rfl quotient product))

omit alikeNumbers alikeNames itself in
theorem Expr.require_marked_call_together (related : tree.Related numbers names tree') :
    (lift tree.requireMarkedCall).Together
      (fun _ _ => ∃ name arg, tree.underMarkers = call name arg)
      (lift tree'.requireMarkedCall) := by
  have below := related.under_markers
  unfold requireMarkedCall
  generalize tree.underMarkers = found, tree'.underMarkers = found' at below ⊢
  intro steps steps'
  cases below with
  | call name inner => exact .inl ⟨_, _, steps, steps', rfl, rfl, name, _, rfl⟩
  | missing | num close | var close | binary op left right | signed op inner | marked op inner =>
      exact .inr ⟨_, _, steps, steps', rfl, rfl, .inr ⟨_, _, rfl, rfl⟩⟩

/-- The same rules fire on related trees, in the same order, and so they do on the arguments of
calls below markers. -/
theorem Expr.differentiate_together (related : tree.Related numbers names tree')
    (built : tree.Built) :
    (tree.differentiate v).Together (Paired numbers names) (tree'.differentiate w) ∧
      ∀ name arg, tree.underMarkers = call name arg →
        (tree.argumentDerivative v).Together (Paired numbers names)
          (tree'.argumentDerivative w) := by
  have number (n : Nat) : Paired numbers names (num (Scalar.ofNat n)) (num (Scalar.ofNat n)) :=
    paired_whole alikeNumbers n
  induction related with
  | missing => exact absurd built built_missing
  | num close =>
      refine ⟨?_, fun _ _ under => by cases under⟩
      rw [differentiate, differentiate]
      exact record_together alikeNames ⟨.num close, built⟩ (number 0)
  | @var x y close =>
      refine ⟨?_, fun _ _ under => by cases under⟩
      rw [differentiate, differentiate]
      simp only [itself close]
      exact record_together alikeNames ⟨.var close, built⟩ (number _)
  | @binary op lhs rhs lhs' rhs' left right inductionLeft inductionRight =>
      refine ⟨?_, fun _ _ under => by cases under⟩
      obtain ⟨known, builtLeft, builtRight⟩ := (built_binary _ _ _).1 built
      have node : Paired numbers names (binary op lhs rhs) (binary op lhs' rhs') :=
        ⟨.binary op left right, built⟩
      have lefts : Paired numbers names lhs lhs' := ⟨left, builtLeft⟩
      have rights : Paired numbers names rhs rhs' := ⟨right, builtRight⟩
      have first := (inductionLeft builtLeft).1
      have second := (inductionRight builtRight).1
      cases op with
      | add | sub =>
          rw [differentiate, differentiate]
          refine first.bind fun _ _ dLefts => second.bind fun _ _ dRights => ?_
          exact record_together alikeNames node (.binary _ rfl dLefts dRights)
      | mul =>
          rw [differentiate, differentiate]
          refine (discard_together alikeNames lefts).bind fun _ _ _ => ?_
          refine second.bind fun _ _ dRights => first.bind fun _ _ dLefts => ?_
          refine (discard_together alikeNames rights).bind fun _ _ _ => ?_
          have first := Paired.binary .mul rfl lefts dRights
          have second := Paired.binary .mul rfl dLefts rights
          exact record_together alikeNames node (.binary .add rfl first second)
      | div =>
          rw [differentiate, differentiate]
          refine first.bind fun _ _ dLefts => ?_
          refine (discard_together alikeNames rights).bind fun _ _ _ => ?_
          refine (discard_together alikeNames lefts).bind fun _ _ _ => ?_
          refine second.bind fun _ _ dRights => ?_
          have difference := Paired.binary .sub rfl (.binary .mul rfl dLefts rights)
            (.binary .mul rfl lefts dRights)
          have square := Paired.binary .pow rfl rights (number 2)
          exact record_together alikeNames node (.binary .div rfl difference square)
      | pow => exact power_together alikeNames alikeNumbers itself lefts rights first second
      | other symbol => cases known
  | @signed op operand operand' inner induction =>
      refine ⟨?_, fun _ _ under => by cases under⟩
      obtain ⟨known, builtInner⟩ := (built_signed _ _).1 built
      rw [differentiate, differentiate]
      refine (induction builtInner).1.bind fun derivative derivative' derivatives => ?_
      have present := derivatives.built.not_missing
      rw [make_signed_ok.2 ⟨present, known, rfl⟩,
        make_signed_ok.2 ⟨derivatives.related.is_missing ▸ present, known, rfl⟩]
      exact record_together alikeNames ⟨.signed op inner, built⟩ (.signed known derivatives)
  | @marked op operand operand' inner induction =>
      obtain ⟨known, builtInner⟩ := (built_marked _ _).1 built
      cases op with
      | other symbol => cases known
      | prime =>
          have node : Paired numbers names (marked .prime operand) (marked .prime operand') :=
            ⟨.marked .prime inner, built⟩
          constructor
          · rw [differentiate, differentiate]
            refine (require_marked_call_together inner).bind ?_
            rintro _ _ ⟨name, arg, under⟩
            refine (lift_together (node.whole_agree alikeNames)).bind fun _ _ outers => ?_
            refine ((induction builtInner).2 name arg under).bind fun _ _ derivatives => ?_
            exact record_together alikeNames node (.binary .mul rfl outers.prime derivatives)
          · intro name arg under
            rw [argumentDerivative, argumentDerivative]
            exact (induction builtInner).2 name arg under
  | @call name arg arg' inner induction =>
      obtain ⟨named, builtInner⟩ := (built_call _ _).1 built
      have argument := (induction builtInner).1
      have args : Paired numbers names arg arg' := ⟨inner, builtInner⟩
      constructor
      · rw [differentiate, differentiate]
        have outside := (args.whole_agree alikeNames).bind
          fun _ _ _ copies => outer_derivative_agree alikeNumbers named copies
        refine (lift_together outside).bind fun _ _ outers => ?_
        refine argument.bind fun _ _ derivatives => ?_
        exact record_together alikeNames ⟨.call name inner, built⟩
          (.binary .mul rfl outers derivatives)
      · intro name' arg' under
        rw [argumentDerivative, argumentDerivative]
        exact argument

theorem Expr.raw_derivative_together (related : tree.Related numbers names tree')
    (built : tree.Built) :
    (∃ raw raw', tree.rawDerivative v = .ok raw ∧ tree'.rawDerivative w = .ok raw' ∧
      raw.Related numbers names raw') ∨
    ∃ fault fault', tree.rawDerivative v = .error fault ∧
      tree'.rawDerivative w = .error fault' ∧ fault.Alike fault' := by
  unfold rawDerivative EStateM.run
  rcases (differentiate_together alikeNames alikeNumbers itself related built).1 #[] #[] with
    ⟨raw, raw', after, after', done, done', raws⟩ |
    ⟨fault, fault', after, after', failed, failed', alike⟩
  · rw [done, done']
    exact .inl ⟨raw, raw', rfl, rfl, raws.related⟩
  · rw [failed, failed']
    exact .inr ⟨fault, fault', rfl, rfl, alike⟩

/-- Where all chains of markers end in calls, only exponents fail, and nothing is shown of them. -/
theorem Expr.raw_derivative_agree {allowed : String → Prop}
    (related : tree.Related numbers names tree') (built : tree.Built) (marks : tree.Marks allowed) :
    Agree (Related numbers names) (tree.rawDerivative v) (tree'.rawDerivative w) := by
  rcases raw_derivative_together alikeNames alikeNumbers itself related built with
    ⟨raw, raw', done, done', raws⟩ | ⟨fault, fault', failed, failed', alike⟩
  · rw [done, done']
    exact .ok raws
  · rcases raw_derivative_of_built (v := v) built marks with ⟨raw, done, -⟩ | ⟨-, unsettled⟩
    · rw [failed] at done
      cases done
    · cases failed.symm.trans unsettled
      rcases alike with rfl | ⟨_, _, marker, -⟩
      · rw [failed, failed']
        exact .error _
      · cases marker

end

end Fluxion
