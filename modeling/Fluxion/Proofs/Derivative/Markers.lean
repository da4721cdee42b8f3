import Fluxion.Proofs.Derivative.Constant
import Fluxion.Proofs.Simplify.Still

/-!
Derivative markers under optimization. A chain of markers stands over a foot, and no rewrite
touches the chain; what can happen to the foot, if it is a call, is that its argument is
rewritten and that an identity then puts a number in place of the call. Main statement: every
chain of an optimized tree comes from a chain of the same length in this way, and the tree can
be differentiated if its chains still end in calls.
-/

namespace Fluxion

open Simplify

variable {α : Type}

structure Chain (α : Type) where
  length : Nat
  /-- The node below the last marker. -/
  foot : Expr α

namespace Chain

def EndsInCall (chain : Chain α) : Prop := ∃ name arg, chain.foot = .call name arg

end Chain

namespace Expr

def chainOver (above : Nat) (foot : Expr α) : List (Chain α) :=
  if above = 0 then [] else [⟨above, foot⟩]

def chainsBelow (above : Nat) : Expr α → List (Chain α)
  | missing => chainOver above missing
  | num value => chainOver above (num value)
  | var name => chainOver above (var name)
  | binary op lhs rhs =>
      chainOver above (binary op lhs rhs) ++ (lhs.chainsBelow 0 ++ rhs.chainsBelow 0)
  | signed op operand => chainOver above (signed op operand) ++ operand.chainsBelow 0
  | marked _ operand => operand.chainsBelow (above + 1)
  | call name arg => chainOver above (call name arg) ++ arg.chainsBelow 0

def chains (tree : Expr α) : List (Chain α) := tree.chainsBelow 0

@[simp] theorem mem_chain_over {above : Nat} {foot : Expr α} {chain : Chain α} :
    chain ∈ chainOver above foot ↔ above ≠ 0 ∧ chain = ⟨above, foot⟩ := by
  unfold chainOver
  split <;> simp_all

/-- Where every chain ends in a call, differentiation finds one below every marker. -/
theorem marks_of_chains {above : Nat} {tree : Expr α} (built : tree.Built)
    (ends : ∀ chain ∈ tree.chainsBelow above, chain.EndsInCall) :
    tree.Marks (fun _ => True) ∧ (above ≠ 0 → ∃ name arg, tree.underMarkers = call name arg) := by
  induction tree generalizing above with
  | missing => exact absurd built built_missing
  | num | var =>
      refine ⟨trivial, fun marked => ?_⟩
      exact ends _ (mem_chain_over.2 ⟨marked, rfl⟩)
  | binary op lhs rhs left right =>
      obtain ⟨-, builtLeft, builtRight⟩ := (built_binary _ _ _).1 built
      simp only [chainsBelow, List.mem_append] at ends
      refine ⟨⟨?_, ?_⟩, fun marked => ?_⟩
      · exact (left builtLeft fun chain inside => ends chain (.inr (.inl inside))).1
      · exact (right builtRight fun chain inside => ends chain (.inr (.inr inside))).1
      · exact ends _ (.inl (mem_chain_over.2 ⟨marked, rfl⟩))
  | signed op operand inner =>
      simp only [chainsBelow, List.mem_append] at ends
      refine ⟨?_, fun marked => ?_⟩
      · exact (inner ((built_signed _ _).1 built).2 fun chain inside =>
          ends chain (.inr inside)).1
      · exact ends _ (.inl (mem_chain_over.2 ⟨marked, rfl⟩))
  | marked op operand inner =>
      obtain ⟨known, builtInner⟩ := (built_marked _ _).1 built
      obtain ⟨marks, under⟩ := inner builtInner ends
      obtain ⟨name, arg, under⟩ := under (Nat.succ_ne_zero above)
      cases op with
      | prime => exact ⟨⟨⟨name, arg, under, trivial⟩, marks⟩, fun _ => ⟨name, arg, under⟩⟩
      | other symbol => cases known
  | call name arg inner =>
      simp only [chainsBelow, List.mem_append] at ends
      refine ⟨?_, fun _ => ⟨name, arg, rfl⟩⟩
      exact (inner ((built_call _ _).1 built).2 fun chain inside => ends chain (.inr inside)).1

end Expr

variable [Scalar α] {epsilon : α}

namespace Simplify

open Fluxion.Expr

theorem CallRule.among {name : String} {arg tree : Expr α} (rule : CallRule epsilon name arg tree) :
    name ∈ ["sin", "tg", "cos", "ln"] := by
  cases rule <;> simp

theorem CallRule.number {name : String} {arg tree : Expr α}
    (rule : CallRule epsilon name arg tree) : ∃ value, tree = .num value := by
  cases rule <;> exact ⟨_, rfl⟩

/-- A call keeps its name until an identity puts a number in its place. -/
theorem Rewrites.of_call {name : String} {arg tree : Expr α}
    (rewrites : Rewrites epsilon (.call name arg) tree) :
    ∃ arg', Rewrites epsilon arg arg' ∧
      (tree = .call name arg' ∨ CallRule epsilon name arg' tree) := by
  generalize same : Expr.call name arg = source at rewrites
  induction rewrites generalizing arg with
  | refl => exact ⟨arg, .refl arg, .inl same.symm⟩
  | trans before after first second =>
      obtain ⟨between, begins, rfl | rule⟩ := first same
      · obtain ⟨arg', continues, result⟩ := second rfl
        exact ⟨arg', begins.trans continues, result⟩
      · obtain ⟨value, rfl⟩ := rule.number
        cases after.of_number
        exact ⟨between, begins, .inr rule⟩
  | call name inner =>
      cases same
      exact ⟨_, inner, .inl rfl⟩
  | callRule rule =>
      cases same
      exact ⟨_, .refl _, .inr rule⟩
  | _ => cases same

/-- A node that no rewrite turns into a marker or into a part of its own. -/
inductive Firm : Expr α → Prop
  | number (value : α) : Firm (.num value)
  | call (name : String) (arg : Expr α) : Firm (.call name arg)

theorem Rewrites.firm {foot foot' : Expr α} (rewrites : Rewrites epsilon foot foot')
    (firm : Firm foot) : Firm foot' := by
  cases firm with
  | number value =>
      rw [rewrites.of_number]
      exact .number value
  | call name arg =>
      obtain ⟨arg', -, rfl | rule⟩ := rewrites.of_call
      · exact .call name arg'
      · obtain ⟨value, rfl⟩ := rule.number
        exact .number value

omit [Scalar α] in
theorem unmarked_of_firm {above : Nat} {foot : Expr α} {others : List (Chain α)}
    (firm : ∀ chain ∈ chainOver above foot ++ others, Firm chain.foot) (loose : ¬ Firm foot) :
    above = 0 := by
  by_contra marked
  exact loose (firm _ (List.mem_append_left _ (mem_chain_over.2 ⟨marked, rfl⟩)))

/-- Every chain of the one tree comes from a chain of the other, by rewrites of its foot. -/
def Descend (epsilon : α) (chains chains' : List (Chain α)) : Prop :=
  ∀ chain ∈ chains', ∃ origin ∈ chains, origin.length = chain.length ∧
    Rewrites epsilon origin.foot chain.foot

theorem descend_of_subset {chains chains' : List (Chain α)} (subset : chains' ⊆ chains) :
    Descend epsilon chains chains' :=
  fun chain inside => ⟨chain, subset inside, rfl, .refl _⟩

theorem Descend.append {first first' second second' : List (Chain α)}
    (left : Descend epsilon first first') (right : Descend epsilon second second') :
    Descend epsilon (first ++ second) (first' ++ second') := by
  intro chain inside
  rcases List.mem_append.1 inside with inside | inside
  · obtain ⟨origin, found, descends⟩ := left chain inside
    exact ⟨origin, List.mem_append_left _ found, descends⟩
  · obtain ⟨origin, found, descends⟩ := right chain inside
    exact ⟨origin, List.mem_append_right _ found, descends⟩

theorem descend_over (above : Nat) {foot foot' : Expr α} (rewrites : Rewrites epsilon foot foot') :
    Descend epsilon (chainOver above foot) (chainOver above foot') := by
  intro chain inside
  obtain ⟨marked, rfl⟩ := mem_chain_over.1 inside
  exact ⟨⟨above, foot⟩, mem_chain_over.2 ⟨marked, rfl⟩, rfl, rewrites⟩

/-- What is put in place of a binary node brings no chain of its own. -/
theorem BinaryRule.chains {op : BinaryOp} {lhs rhs tree : Expr α}
    (rule : BinaryRule epsilon op lhs rhs tree) :
    tree.chainsBelow 0 ⊆ (Expr.binary op lhs rhs).chainsBelow 0 := by
  cases rule <;> simp [chainsBelow, chainOver, wholeNumber]

theorem SignRule.chains {op : SignOp} {operand tree : Expr α}
    (rule : SignRule op operand tree) :
    tree.chainsBelow 0 ⊆ (Expr.signed op operand).chainsBelow 0 := by
  cases rule <;> simp [chainsBelow, chainOver]

theorem Rewrites.chains_descend {tree tree' : Expr α} (rewrites : Rewrites epsilon tree tree')
    {above : Nat} (firm : ∀ chain ∈ tree.chainsBelow above, Firm chain.foot) :
    Descend epsilon (tree.chainsBelow above) (tree'.chainsBelow above) := by
  induction rewrites generalizing above with
  | refl tree => exact descend_of_subset (List.Subset.refl _)
  | @trans tree middle tree' before after first second =>
      have descends := first firm
      -- Firm feet stay firm, which is what the second stretch asks for.
      have firmBetween : ∀ chain ∈ middle.chainsBelow above, Firm chain.foot := by
        intro chain inside
        obtain ⟨origin, found, -, rewrites⟩ := descends chain inside
        exact rewrites.firm (firm origin found)
      intro chain inside
      obtain ⟨between, found, length, rewrites⟩ := second firmBetween chain inside
      obtain ⟨origin, found, length', rewrites'⟩ := descends between found
      exact ⟨origin, found, length'.trans length, rewrites'.trans rewrites⟩
  | binary op left right first second =>
      cases unmarked_of_firm firm nofun
      exact (first fun chain inside => firm chain (by simp [chainsBelow, inside])).append
        (second fun chain inside => firm chain (by simp [chainsBelow, inside]))
  | signed op inner induction =>
      cases unmarked_of_firm firm nofun
      exact induction firm
  | marked op inner induction => exact induction firm
  | call name inner induction =>
      refine (descend_over above (.call name inner)).append ?_
      exact induction fun chain inside => firm chain (List.mem_append_right _ inside)
  | folded folds =>
      cases unmarked_of_firm firm nofun
      exact descend_of_subset (List.nil_subset _)
  | binaryRule rule =>
      cases unmarked_of_firm firm nofun
      exact descend_of_subset rule.chains
  | signRule rule =>
      cases unmarked_of_firm firm nofun
      exact descend_of_subset rule.chains
  | callRule rule =>
      obtain ⟨value, rfl⟩ := rule.number
      intro chain inside
      obtain ⟨origin, found, descends⟩ := descend_over above (.callRule rule) chain inside
      exact ⟨origin, List.mem_append_left _ found, descends⟩

/-- Where every chain stands over a call, it stands afterwards over a call of the same function,
or over what an identity has put in place of the call. -/
theorem Rewrites.chains_of_calls {tree tree' : Expr α} (rewrites : Rewrites epsilon tree tree')
    (ends : ∀ chain ∈ tree.chains, chain.EndsInCall) {chain : Chain α}
    (inside : chain ∈ tree'.chains) :
    ∃ origin ∈ tree.chains, origin.length = chain.length ∧
      ∃ name arg arg', origin.foot = .call name arg ∧ Rewrites epsilon arg arg' ∧
        (chain.foot = .call name arg' ∨ CallRule epsilon name arg' chain.foot) := by
  have firm : ∀ chain ∈ tree.chains, Firm chain.foot := fun chain inside => by
    obtain ⟨name, arg, foot⟩ := ends chain inside
    rw [foot]
    exact .call name arg
  obtain ⟨origin, found, length, rewritten⟩ := rewrites.chains_descend firm chain inside
  obtain ⟨name, arg, foot⟩ := ends origin found
  rw [foot] at rewritten
  obtain ⟨arg', inner, result⟩ := rewritten.of_call
  exact ⟨origin, found, length, name, arg, arg', foot, inner, result⟩

theorem still_child {part tree : Expr α} (built : tree.Built) (still : Settles epsilon 0 tree)
    (child : part ∈ tree.children) : Settles epsilon 0 part := by
  cases tree with
  | missing | num | var => simp [children] at child
  | binary op lhs rhs =>
      obtain ⟨left, right, -⟩ := still_binary built still
      simp only [children, List.mem_cons, List.not_mem_nil, or_false] at child
      rcases child with rfl | rfl
      · exact left
      · exact right
  | signed op operand =>
      cases List.mem_singleton.1 child
      exact still_under_sign built still
  | marked op operand =>
      cases List.mem_singleton.1 child
      exact still_under_marker built still
  | call name arg =>
      cases List.mem_singleton.1 child
      exact still_argument built still

theorem still_within {part tree : Expr α} (built : tree.Built) (still : Settles epsilon 0 tree)
    (within : part.Within tree) : Settles epsilon 0 part := by
  induction within with
  | root => exact still
  | under child within inner => exact inner (built.child child) (still_child built still child)

theorem optimize_of_still {tree : Expr α} (still : Settles Scalar.tolerance 0 tree) :
    tree.optimize = .ok tree := by
  have done : run Scalar.tolerance tree = .ok ⟨tree, 1⟩ := sweeps_of_still still
  rw [optimize, done]
  rfl

end Simplify

namespace Expr

theorem exponents_of_still {tree : Expr α} (built : tree.Built)
    (still : Settles Scalar.tolerance 0 tree) : ExponentsFail (fun _ => False) tree := by
  intro base exponent fault within failed
  have atRest := still_within built still within
  have builtPower := within.built built
  rw [optimize_of_still (still_binary builtPower atRest).2.1] at failed
  cases failed

/-- The chains of an optimized tree are those of the tree, each over a call of the same
function or over the number that an identity gives for the call; the second is left out if
no marked call is one of the four functions with identities. With calls below its markers
the optimized tree can be differentiated by every variable. -/
theorem marker_chains_of_optimized {tree optimized : Expr α} (built : tree.Built)
    (ends : ∀ chain ∈ tree.chains, chain.EndsInCall) (done : tree.optimize = .ok optimized) :
    (∀ chain ∈ optimized.chains, ∃ origin ∈ tree.chains, origin.length = chain.length ∧
      ∃ name arg arg', origin.foot = call name arg ∧ Rewrites Scalar.tolerance arg arg' ∧
        (chain.foot = call name arg' ∨ CallRule Scalar.tolerance name arg' chain.foot)) ∧
    ((∀ chain ∈ tree.chains, ∀ name ∈ ["sin", "tg", "cos", "ln"], ∀ arg,
      chain.foot ≠ call name arg) → ∀ chain ∈ optimized.chains, chain.EndsInCall) ∧
    ((∀ chain ∈ optimized.chains, chain.EndsInCall) →
      ∀ v, ∃ derivative, optimized.rawDerivative v = .ok derivative) := by
  have rewrites := optimize_rewrites done
  refine ⟨fun chain inside => rewrites.chains_of_calls ends inside,
    fun unidentified chain inside => ?_, fun calls v => ?_⟩
  · obtain ⟨origin, found, -, name, arg, arg', foot, -, same | rule⟩ :=
      rewrites.chains_of_calls ends inside
    · exact ⟨name, arg', same⟩
    · exact absurd foot (unidentified origin found name rule.among arg)
  · have builtOptimized := rewrites.built built
    have exponents := exponents_of_still builtOptimized (still_of_optimize built done)
    obtain ⟨raw, differentiated, -⟩ :=
      raw_derivative_of_exponents (v := v) builtOptimized (marks_of_chains builtOptimized calls).1
        exponents
    exact ⟨raw, differentiated⟩

def secondOf (arg : Expr Float) : Expr Float := marked .prime (marked .prime (call "f" arg))

/-- In `f(x*1)''` the argument is rewritten below two markers. -/
theorem marker_chains_of_optimized_of_product :
    (secondOf (binary .mul (var "x") (num 1))).Built ∧
      (∀ chain ∈ (secondOf (binary .mul (var "x") (num 1))).chains, chain.EndsInCall) ∧
        (secondOf (binary .mul (var "x") (num 1))).optimize = .ok (secondOf (var "x")) ∧
          ∀ v, ∃ derivative, (secondOf (var "x")).rawDerivative v = .ok derivative := by
  have built : (secondOf (binary .mul (var "x") (num 1))).Built := by
    simp [secondOf, BinaryOp.isKnown, MarkOp.isKnown]
  have ends : ∀ chain ∈ (secondOf (binary .mul (var "x") (num 1))).chains, chain.EndsInCall := by
    simp [secondOf, chains, chainsBelow, chainOver, Chain.EndsInCall]
  have one : Scalar.near Scalar.tolerance (1 : Float) (Scalar.ofNat 1) = true := by
    decide +kernel
  have first : sweep Scalar.tolerance (secondOf (binary .mul (var "x") (num 1))) =
      .ok ⟨secondOf (var "x"), true⟩ := by
    simp [secondOf, sweep, foldConstants, simplify, requireChild, isMissing, foldNode, settle,
      reduceBinary, reduceProduct, reduceCall, isValue, one, eulerName]
  have second : sweep Scalar.tolerance (secondOf (var "x")) =
      .ok ⟨secondOf (var "x"), false⟩ := by
    simp [secondOf, sweep, foldConstants, simplify, requireChild, isMissing, settle, reduceCall,
      eulerName]
  have ran : run Scalar.tolerance (secondOf (binary .mul (var "x") (num 1))) =
      .ok ⟨secondOf (var "x"), 2⟩ := (sweeps_of_change first).trans (sweeps_of_still second)
  have done : (secondOf (binary .mul (var "x") (num 1))).optimize = .ok (secondOf (var "x")) := by
    rw [optimize, ran]
    rfl
  obtain ⟨-, calls, differentiable⟩ := marker_chains_of_optimized built ends done
  refine ⟨built, ends, done, differentiable (calls ?_)⟩
  simp [secondOf, chains, chainsBelow, chainOver]

/-- In `sin(0)'` the marked call is replaced by its value: the marker is left over a number, and
the derivative is refused. -/
theorem marked_sine_optimized_to_number :
    ∃ tree optimized : Expr Float, tree.Built ∧ (∀ chain ∈ tree.chains, chain.EndsInCall) ∧
      tree.optimize = .ok optimized ∧ (∃ chain ∈ optimized.chains, ¬ chain.EndsInCall) ∧
        ¬ ∃ derivative, optimized.rawDerivative "x" = .ok derivative := by
  have zero : Scalar.near Scalar.tolerance (0 : Float) (Scalar.ofNat 0) = true := by
    decide +kernel
  have first : sweep Scalar.tolerance (marked .prime (call "sin" (num (0 : Float)))) =
      .ok ⟨marked .prime (wholeNumber 0), true⟩ := by
    simp [sweep, foldConstants, simplify, requireChild, isMissing, settle, reduceCall, identityAt?,
      zero]
  have second : sweep Scalar.tolerance (marked .prime (wholeNumber 0) : Expr Float) =
      .ok ⟨marked .prime (wholeNumber 0), false⟩ := rfl
  have ran : run Scalar.tolerance (marked .prime (call "sin" (num (0 : Float)))) =
      .ok ⟨marked .prime (wholeNumber 0), 2⟩ :=
    (sweeps_of_change first).trans (sweeps_of_still second)
  refine ⟨marked .prime (call "sin" (num 0)), marked .prime (wholeNumber 0), ?_, ?_, ?_, ?_, ?_⟩
  · simp [MarkOp.isKnown]
  · simp [chains, chainsBelow, chainOver, Chain.EndsInCall]
  · rw [optimize, ran]
    rfl
  · simp [chains, chainsBelow, chainOver, Chain.EndsInCall, wholeNumber]
  · rintro ⟨derivative, done⟩
    cases done

end Expr

end Fluxion
