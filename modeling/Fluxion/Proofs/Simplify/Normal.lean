import Fluxion.Proofs.Simplify.Rewriting
import Fluxion.Scalar.Double

/-!
Normal forms of optimization. A pass visits the children of a node before the node itself, so
what a rule sees is the node over children that were visited already. What one visit does to
a node is said once for both passes; that the reports are the rewritten nodes, no more and no
fewer, follows by induction on the tree. Main statement: the reports of both passes can be
trusted in both directions, and optimization ends in a tree to which no rule applies and
which it leaves as it is.
-/

namespace Fluxion

open Outcome

variable {α : Type}

namespace Expr

/-- Nothing is missing and every operator is known. Names may be empty. -/
def Valid : Expr α → Prop
  | missing => False
  | num _ | var _ => True
  | binary op lhs rhs => op.isKnown = true ∧ lhs.Valid ∧ rhs.Valid
  | signed op operand => op.isKnown = true ∧ operand.Valid
  | marked op operand => op.isKnown = true ∧ operand.Valid
  | call _ arg => arg.Valid

instance decidableValid : (tree : Expr α) → Decidable tree.Valid
  | missing => isFalse id
  | num _ | var _ => isTrue trivial
  | binary op lhs rhs =>
      have := decidableValid lhs
      have := decidableValid rhs
      inferInstanceAs (Decidable (op.isKnown = true ∧ lhs.Valid ∧ rhs.Valid))
  | signed op operand =>
      have := decidableValid operand
      inferInstanceAs (Decidable (op.isKnown = true ∧ operand.Valid))
  | marked op operand =>
      have := decidableValid operand
      inferInstanceAs (Decidable (op.isKnown = true ∧ operand.Valid))
  | call _ arg => decidableValid arg

theorem Valid.present {tree : Expr α} (valid : tree.Valid) : tree.isMissing = false := by
  cases tree with
  | missing => exact valid.elim
  | _ => rfl

theorem Built.valid {tree : Expr α} (built : tree.Built) : tree.Valid := by
  induction tree with
  | missing => exact absurd built built_missing
  | num | var => trivial
  | binary op lhs rhs left right =>
      obtain ⟨known, builtLeft, builtRight⟩ := (built_binary _ _ _).1 built
      exact ⟨known, left builtLeft, right builtRight⟩
  | signed op operand inner =>
      obtain ⟨known, builtInner⟩ := (built_signed _ _).1 built
      exact ⟨known, inner builtInner⟩
  | marked op operand inner =>
      obtain ⟨known, builtInner⟩ := (built_marked _ _).1 built
      exact ⟨known, inner builtInner⟩
  | call name arg inner => exact inner ((built_call _ _).1 built).2

inductive Within (node : Expr α) : Expr α → Prop
  | root : Within node node
  | under {part tree : Expr α} (child : part ∈ tree.children) (within : Within node part) :
      Within node tree

theorem within_iff {node tree : Expr α} :
    node.Within tree ↔ node = tree ∨ ∃ part ∈ tree.children, node.Within part := by
  constructor
  · intro within
    cases within with
    | root => exact .inl rfl
    | under child within => exact .inr ⟨_, child, within⟩
  · rintro (rfl | ⟨part, child, within⟩)
    · exact .root
    · exact .under child within

theorem Valid.child {part tree : Expr α} (valid : tree.Valid) (child : part ∈ tree.children) :
    part.Valid := by
  cases tree with
  | missing | num | var => simp [children] at child
  | binary op lhs rhs =>
      simp only [children, List.mem_cons, List.not_mem_nil, or_false] at child
      rcases child with rfl | rfl
      · exact valid.2.1
      · exact valid.2.2
  | signed op operand | marked op operand =>
      cases List.mem_singleton.1 child
      exact valid.2
  | call name arg =>
      cases List.mem_singleton.1 child
      exact valid

theorem Within.valid {node tree : Expr α} (within : node.Within tree) (valid : tree.Valid) :
    node.Valid := by
  induction within with
  | root => exact valid
  | under child within inner => exact inner (valid.child child)

end Expr

namespace Simplify

section

variable {visit : Expr α → Except Fault (Pass α)} {rule : Expr α → Expr α → Prop}

/-- What a pass finds when it comes to a node: the node over its visited children, and
whether one of them was reported. -/
inductive Found (visit : Expr α → Except Fault (Pass α)) : Expr α → Expr α → Bool → Prop
  | num (value : α) : Found visit (.num value) (.num value) false
  | var (name : String) : Found visit (.var name) (.var name) false
  | binary {op : BinaryOp} {lhs rhs : Expr α} {left right : Pass α}
      (visitedLeft : visit lhs = .ok left) (visitedRight : visit rhs = .ok right) :
      Found visit (.binary op lhs rhs) (.binary op left.tree right.tree)
        (left.changed || right.changed)
  | signed {op : SignOp} {operand : Expr α} {inner : Pass α} (visited : visit operand = .ok inner) :
      Found visit (.signed op operand) (.signed op inner.tree) inner.changed
  | marked {op : MarkOp} {operand : Expr α} {inner : Pass α} (visited : visit operand = .ok inner) :
      Found visit (.marked op operand) (.marked op inner.tree) inner.changed
  | call {name : String} {arg : Expr α} {inner : Pass α} (visited : visit arg = .ok inner) :
      Found visit (.call name arg) (.call name inner.tree) inner.changed

/-- Where a rule applies to what was found, its reduct is the outcome and is reported; else
nothing happens beyond the children. -/
def Turns (rule : Expr α → Expr α → Prop) (found : Expr α) (below : Bool) (pass : Pass α) :
    Prop :=
  (∃ reduct, rule found reduct ∧ pass = ⟨reduct, true⟩) ∨
    (∀ reduct, ¬ rule found reduct) ∧ pass = ⟨found, below⟩

/-- A pass that uses its rule at every node, from the leaves to the root. -/
structure Applies (visit : Expr α → Except Fault (Pass α)) (rule : Expr α → Expr α → Prop) :
    Prop where
  turns : ∀ {tree found : Expr α} {below : Bool}, tree.Valid → Found visit tree found below →
    ∃ pass, visit tree = .ok pass ∧ Turns rule found below pass

structure Faithful (visit : Expr α → Except Fault (Pass α)) (rule : Expr α → Expr α → Prop)
    (tree : Expr α) (pass : Pass α) : Prop where
  /-- The pass uses its rule at every node. -/
  turns : ∀ node : Expr α, node.Within tree → ∃ found below after,
    Found visit node found below ∧ visit node = .ok after ∧ Turns rule found below after
  /-- A change is reported exactly if a node was rewritten. -/
  reports : pass.changed = true ↔ ∃ node found below reduct, node.Within tree ∧
    Found visit node found below ∧ rule found reduct
  /-- Without a change the tree is the same and the rule applies nowhere in it. -/
  still : pass.changed = false → pass.tree = tree ∧
    ∀ node : Expr α, node.Within tree → ∀ reduct, ¬ rule node reduct

theorem Found.unique {node found found' : Expr α} {below below' : Bool}
    (first : Found visit node found below) (second : Found visit node found' below') :
    found = found' ∧ below = below' := by
  cases first with
  | num | var =>
      cases second
      exact ⟨rfl, rfl⟩
  | binary visitedLeft visitedRight =>
      cases second with
      | binary visitedLeft' visitedRight' =>
          cases visitedLeft.symm.trans visitedLeft'
          cases visitedRight.symm.trans visitedRight'
          exact ⟨rfl, rfl⟩
  | signed visited | marked visited | call visited =>
      cases second
      rename_i visited'
      cases visited.symm.trans visited'
      exact ⟨rfl, rfl⟩

/-- What a pass finds at a node, seen from its children: each was visited faithfully, the
report from below is theirs, and without one the node is found as it was. -/
theorem found_of_children {tree : Expr α} (valid : tree.Valid)
    (visited : ∀ part ∈ tree.children, ∃ pass, visit part = .ok pass ∧
      Faithful visit rule part pass) :
    ∃ found below, Found visit tree found below ∧
      (below = true ↔ ∃ part ∈ tree.children, ∃ pass, visit part = .ok pass ∧
        pass.changed = true) ∧
      (below = false → found = tree) := by
  cases tree with
  | missing => exact valid.elim
  | num value => exact ⟨_, _, .num value, by simp [Expr.children], fun _ => rfl⟩
  | var name => exact ⟨_, _, .var name, by simp [Expr.children], fun _ => rfl⟩
  | binary op lhs rhs =>
      obtain ⟨left, doneLeft, faithfulLeft⟩ := visited lhs (by simp [Expr.children])
      obtain ⟨right, doneRight, faithfulRight⟩ := visited rhs (by simp [Expr.children])
      refine ⟨_, _, .binary doneLeft doneRight, by simp [Expr.children, doneLeft, doneRight], ?_⟩
      intro unchanged
      obtain ⟨first, second⟩ := Bool.or_eq_false_iff.1 unchanged
      rw [(faithfulLeft.still first).1, (faithfulRight.still second).1]
  | signed op operand =>
      obtain ⟨inner, done, faithful⟩ := visited operand (by simp [Expr.children])
      refine ⟨_, _, .signed done, by simp [Expr.children, done], fun unchanged => ?_⟩
      rw [(faithful.still unchanged).1]
  | marked op operand =>
      obtain ⟨inner, done, faithful⟩ := visited operand (by simp [Expr.children])
      refine ⟨_, _, .marked done, by simp [Expr.children, done], fun unchanged => ?_⟩
      rw [(faithful.still unchanged).1]
  | call name arg =>
      obtain ⟨inner, done, faithful⟩ := visited arg (by simp [Expr.children])
      refine ⟨_, _, .call done, by simp [Expr.children, done], fun unchanged => ?_⟩
      rw [(faithful.still unchanged).1]

/-- The step of the induction: reports are right at a node if they are at its children. -/
theorem faithful_of_children (applies : Applies visit rule) {tree : Expr α} (valid : tree.Valid)
    (visited : ∀ part ∈ tree.children, ∃ pass, visit part = .ok pass ∧
      Faithful visit rule part pass) :
    ∃ pass, visit tree = .ok pass ∧ Faithful visit rule tree pass := by
  obtain ⟨found, below, reached, reported, same⟩ := found_of_children valid visited
  obtain ⟨pass, done, turned⟩ := applies.turns valid reached
  -- the children's reports, as rewritten nodes
  have underneath : below = true ↔ ∃ part ∈ tree.children, ∃ node found below reduct,
      node.Within part ∧ Found visit node found below ∧ rule found reduct := by
    rw [reported]
    refine exists_congr fun part => and_congr_right fun child => ?_
    obtain ⟨passPart, donePart, faithful⟩ := visited part child
    simp [donePart, faithful.reports]
  refine ⟨pass, done, ⟨?_, ?_, ?_⟩⟩
  · intro node within
    rcases Expr.within_iff.1 within with rfl | ⟨part, child, within⟩
    · exact ⟨found, below, pass, reached, done, turned⟩
    · obtain ⟨passPart, donePart, faithful⟩ := visited part child
      exact faithful.turns node within
  · rcases turned with ⟨reduct, applied, rfl⟩ | ⟨irreducible, rfl⟩
    · exact iff_of_true rfl ⟨tree, found, below, reduct, .root, reached, applied⟩
    · rw [underneath]
      constructor
      · rintro ⟨part, child, node, found, below, reduct, within, seen⟩
        exact ⟨node, found, below, reduct, .under child within, seen⟩
      · rintro ⟨node, found', below', reduct, within, seen, applied⟩
        rcases Expr.within_iff.1 within with rfl | ⟨part, child, within⟩
        · obtain ⟨rfl, -⟩ := reached.unique seen
          exact absurd applied (irreducible reduct)
        · exact ⟨part, child, node, found', below', reduct, within, seen, applied⟩
  · intro unchanged
    rcases turned with ⟨reduct, applied, rfl⟩ | ⟨irreducible, rfl⟩
    · cases unchanged
    · obtain rfl := same unchanged
      refine ⟨rfl, fun node within reduct applied => ?_⟩
      rcases Expr.within_iff.1 within with rfl | ⟨part, child, within⟩
      · exact irreducible reduct applied
      · obtain ⟨passPart, donePart, faithful⟩ := visited part child
        have quiet : passPart.changed = false := by
          rw [← Bool.not_eq_true]
          intro changed
          have report := reported.2 ⟨part, child, passPart, donePart, changed⟩
          exact absurd (report.symm.trans unchanged) (by simp)
        exact (faithful.still quiet).2 node within reduct applied

theorem Applies.faithful (applies : Applies visit rule) {tree : Expr α} (valid : tree.Valid) :
    ∃ pass, visit tree = .ok pass ∧ Faithful visit rule tree pass := by
  induction tree with
  | missing => exact valid.elim
  | num | var => exact faithful_of_children applies valid (by simp [Expr.children])
  | binary op lhs rhs left right =>
      refine faithful_of_children applies valid fun part child => ?_
      simp only [Expr.children, List.mem_cons, List.not_mem_nil, or_false] at child
      rcases child with rfl | rfl
      · exact left valid.2.1
      · exact right valid.2.2
  | signed op operand inner | marked op operand inner =>
      refine faithful_of_children applies valid fun part child => ?_
      cases List.mem_singleton.1 child
      exact inner valid.2
  | call name arg inner =>
      refine faithful_of_children applies valid fun part child => ?_
      cases List.mem_singleton.1 child
      exact inner valid

end

variable [Scalar α] {epsilon : α}

inductive FoldRule : Expr α → Expr α → Prop
  | folds {op : BinaryOp} {a b value : α} (defined : op.fold a b = .ok (some value)) :
      FoldRule (.binary op (.num a) (.num b)) (.num value)

inductive SimplifyRule (epsilon : α) : Expr α → Expr α → Prop
  | binary {op : BinaryOp} {lhs rhs tree : Expr α} (rule : BinaryRule epsilon op lhs rhs tree) :
      SimplifyRule epsilon (.binary op lhs rhs) tree
  | signed {op : SignOp} {operand tree : Expr α} (rule : SignRule op operand tree) :
      SimplifyRule epsilon (.signed op operand) tree
  | call {name : String} {arg tree : Expr α} (rule : CallRule epsilon name arg tree) :
      SimplifyRule epsilon (.call name arg) tree

omit [Scalar α] in
theorem settle_turns {rule : Expr α → Expr α → Prop} {reduced : Option (Expr α)}
    {found : Expr α} (below : Bool) (sound : ∀ reduct, reduced = some reduct → rule found reduct)
    (complete : ∀ reduct, rule found reduct → ∃ tree, reduced = some tree) :
    Turns rule found below (settle reduced found below) := by
  cases reduced with
  | some reduct => exact .inl ⟨reduct, sound reduct rfl, rfl⟩
  | none =>
      refine .inr ⟨fun reduct applied => ?_, rfl⟩
      obtain ⟨_, same⟩ := complete reduct applied
      cases same

theorem fold_node_turns {op : BinaryOp} (known : op.isKnown = true) (lhs rhs : Expr α)
    (below : Bool) : ∃ pass, foldNode op lhs rhs below = .ok pass ∧
      Turns FoldRule (.binary op lhs rhs) below pass := by
  unfold foldNode
  split
  · rename_i a b
    obtain ⟨value, folds⟩ : ∃ value, op.fold a b = .ok value := by
      cases op with
      | other symbol => cases known
      | _ => exact ⟨_, rfl⟩
    rw [folds]
    cases value with
    | some value => exact ⟨_, rfl, .inl ⟨_, .folds folds, rfl⟩⟩
    | none =>
        refine ⟨_, rfl, .inr ⟨?_, rfl⟩⟩
        rintro _ ⟨defined⟩
        cases folds.symm.trans defined
  · rename_i noNumbers
    refine ⟨_, rfl, .inr ⟨?_, rfl⟩⟩
    rintro _ ⟨defined⟩
    exact noNumbers _ _ rfl rfl

theorem fold_applies : Applies (foldConstants (α := α)) FoldRule := by
  constructor
  intro tree found below valid reached
  cases reached with
  | num | var => exact ⟨_, rfl, .inr ⟨by rintro _ ⟨⟩, rfl⟩⟩
  | @binary op lhs rhs left right visitedLeft visitedRight =>
      obtain ⟨known, validLeft, validRight⟩ := valid
      obtain ⟨pass, node, turned⟩ := fold_node_turns known left.tree right.tree
        (left.changed || right.changed)
      refine ⟨pass, ?_, turned⟩
      simp [foldConstants, requireChild, validLeft.present, validRight.present, visitedLeft,
        visitedRight, node]
  | signed visited | marked visited =>
      refine ⟨_, ?_, .inr ⟨by rintro _ ⟨⟩, rfl⟩⟩
      simp [foldConstants, requireChild, valid.2.present, visited]
  | @call name arg inner visited =>
      have validArg : arg.Valid := valid
      refine ⟨_, ?_, .inr ⟨by rintro _ ⟨⟩, rfl⟩⟩
      simp [foldConstants, requireChild, validArg.present, visited]

theorem simplify_applies (epsilon : α) : Applies (simplify epsilon) (SimplifyRule epsilon) := by
  constructor
  intro tree found below valid reached
  cases reached with
  | num | var => exact ⟨_, rfl, .inr ⟨by rintro _ ⟨⟩, rfl⟩⟩
  | binary visitedLeft visitedRight =>
      obtain ⟨-, validLeft, validRight⟩ := valid
      refine ⟨_, ?_, settle_turns _ (fun _ reduces => .binary (reduce_binary_rule reduces)) ?_⟩
      · simp [simplify, requireChild, validLeft.present, validRight.present, visitedLeft,
          visitedRight]
      · intro reduct applied
        cases applied with
        | binary rule => exact rule.reduces
  | signed visited =>
      refine ⟨_, ?_, settle_turns _ (fun _ reduces => .signed (reduce_signed_rule reduces)) ?_⟩
      · simp [simplify, requireChild, valid.2.present, visited]
      · intro reduct applied
        cases applied with
        | signed rule => exact ⟨reduct, rule.reduces⟩
  | marked visited =>
      refine ⟨_, ?_, .inr ⟨by rintro _ ⟨⟩, rfl⟩⟩
      simp [simplify, requireChild, valid.2.present, visited]
  | @call name arg inner visited =>
      have validArg : arg.Valid := valid
      refine ⟨_, ?_, settle_turns _ (fun _ reduces => .call (reduce_call_rule reduces)) ?_⟩
      · simp [simplify, requireChild, validArg.present, visited]
      · intro reduct applied
        cases applied with
        | call rule => exact ⟨reduct, rule.reduces⟩

theorem Rewrites.valid {tree tree' : Expr α} (rewrites : Rewrites epsilon tree tree')
    (valid : tree.Valid) : tree'.Valid := by
  induction rewrites with
  | refl tree => exact valid
  | trans before after first second => exact second (first valid)
  | binary op left right first second => exact ⟨valid.1, first valid.2.1, second valid.2.2⟩
  | signed op inner induction | marked op inner induction => exact ⟨valid.1, induction valid.2⟩
  | call name inner induction => exact induction valid
  | folded folds => trivial
  | binaryRule rule =>
      obtain ⟨-, left, right⟩ := valid
      cases rule with
      | zeroPlus | oneTimes => exact right
      | plusZero | minusZero | timesOne | overOne | powerOne => exact left
      | plusSame => exact ⟨rfl, trivial, left⟩
      | zeroMinus => exact ⟨rfl, right⟩
      | minusSame | zeroTimes | timesZero | zeroOver | overSame | zeroPower | onePower |
        powerZero => trivial
  | signRule rule =>
      cases rule with
      | plus => exact valid.2
      | number => trivial
      | minusMinus => exact valid.2.2
      | minusOther => exact ⟨rfl, valid.2.2⟩
  | callRule rule => cases rule <;> trivial

def Normal (epsilon : α) (tree : Expr α) : Prop :=
  ∀ node : Expr α, node.Within tree → ∀ reduct,
    ¬ FoldRule node reduct ∧ ¬ SimplifyRule epsilon node reduct

theorem sweeps_of_change {left before : Nat} {tree tree' : Expr α}
    (swept : sweep epsilon tree = .ok ⟨tree', true⟩) :
    sweepsFrom epsilon (left + 1) before tree = sweepsFrom epsilon left (before + 1) tree' := by
  simp [sweepsFrom, swept]

theorem sweeps_of_still {left before : Nat} {tree tree' : Expr α}
    (swept : sweep epsilon tree = .ok ⟨tree', false⟩) :
    sweepsFrom epsilon (left + 1) before tree = .ok ⟨tree', before + 1⟩ := by
  simp [sweepsFrom, swept]

/-- Sweeping stops at a tree in normal form that one more sweep does not change. -/
theorem sweeps_end {left before : Nat} {tree : Expr α} {result : Optimized α}
    (valid : tree.Valid) (done : sweepsFrom epsilon left before tree = .ok result) :
    Normal epsilon result.tree ∧ sweep epsilon result.tree = .ok ⟨result.tree, false⟩ := by
  induction left generalizing before tree with
  | zero => cases done
  | succ left induction =>
      simp only [sweepsFrom, bind_eq_ok] at done
      obtain ⟨pass, swept, done⟩ := done
      cases changed : pass.changed with
      | true =>
          rw [if_pos changed] at done
          exact induction ((sweep_rewrites swept).valid valid) done
      | false =>
          rw [changed] at done
          cases pure_eq_ok.1 done
          simp only [sweep, bind_eq_ok, pure_eq_ok] at swept
          obtain ⟨folded, doneFold, simplified, doneSimplify, rfl⟩ := swept
          obtain ⟨quietFold, quietSimplify⟩ := Bool.or_eq_false_iff.1 changed
          obtain ⟨_, doneFold', faithfulFold⟩ := fold_applies.faithful valid
          cases doneFold.symm.trans doneFold'
          obtain ⟨sameFold, noFold⟩ := faithfulFold.still quietFold
          rw [sameFold] at doneSimplify
          obtain ⟨_, doneSimplify', faithfulSimplify⟩ :=
            (simplify_applies epsilon).faithful valid
          cases doneSimplify.symm.trans doneSimplify'
          obtain ⟨sameSimplify, noSimplify⟩ := faithfulSimplify.still quietSimplify
          simp only [sameSimplify]
          refine ⟨fun node within reduct => ⟨noFold node within reduct,
            noSimplify node within reduct⟩, ?_⟩
          simp [sweep, doneFold, sameFold, doneSimplify, sameSimplify, quietFold, quietSimplify]

/-- The reports of folding and of simplification say whether a node was rewritten, and the
result of optimization is a normal form that optimization returns after one sweep. -/
theorem optimized_normal (epsilon : α) {tree : Expr α} (valid : tree.Valid) :
    (∃ pass, foldConstants tree = .ok pass ∧ Faithful foldConstants FoldRule tree pass) ∧
    (∃ pass, simplify epsilon tree = .ok pass ∧
      Faithful (simplify epsilon) (SimplifyRule epsilon) tree pass) ∧
    ∀ result, run epsilon tree = .ok result →
      Normal epsilon result.tree ∧ run epsilon result.tree = .ok ⟨result.tree, 1⟩ := by
  refine ⟨fold_applies.faithful valid, (simplify_applies epsilon).faithful valid, ?_⟩
  intro result done
  obtain ⟨normal, still⟩ := sweeps_end valid done
  refine ⟨normal, ?_⟩
  exact sweeps_of_still still

theorem optimized_normal_of_product :
    run Scalar.tolerance (.binary .mul (.var "x") (.num (1 : Float))) = .ok ⟨.var "x", 2⟩ ∧
      Normal Scalar.tolerance (.var "x" : Expr Float) ∧
        run Scalar.tolerance (.var "x" : Expr Float) = .ok ⟨.var "x", 1⟩ := by
  have valid : (Expr.binary .mul (.var "x") (.num (1 : Float))).Valid :=
    ⟨rfl, trivial, trivial⟩
  have one : Scalar.near Scalar.tolerance (1 : Float) (Scalar.ofNat 1) = true := by
    decide +kernel
  have first : sweep Scalar.tolerance (.binary .mul (.var "x") (.num (1 : Float))) =
      .ok ⟨.var "x", true⟩ := by
    simp [sweep, foldConstants, simplify, requireChild, Expr.isMissing, foldNode, settle,
      reduceBinary, reduceProduct, isValue, one]
  have second : sweep Scalar.tolerance (.var "x" : Expr Float) = .ok ⟨.var "x", false⟩ := rfl
  have done : run Scalar.tolerance (.binary .mul (.var "x") (.num (1 : Float))) =
      .ok ⟨.var "x", 2⟩ := (sweeps_of_change first).trans (sweeps_of_still second)
  exact ⟨done, (optimized_normal Scalar.tolerance valid).2.2 _ done⟩

end Simplify

end Fluxion
