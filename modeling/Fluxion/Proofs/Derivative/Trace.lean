import Fluxion.Proofs.Derivative.Relation
import Fluxion.Scalar.Double
import Mathlib.Data.List.Forall2

/-!
The steps that a differentiation records. Every computation here appends the same steps to
whatever was recorded before, up to their numbers, so that a run can be described by its
outcome and by the entries it appends, and runs one after the other by appending theirs. Main
statement: a run records the steps of the operands that its rule differentiates, in the order
of their evaluation, and then one for the tree itself; each of them, also when the run fails,
tells the derivative that its subtree has on its own.
-/

namespace Fluxion

variable {α : Type} [Scalar α]

namespace Differentiation

structure Entry where
  rule : Rule
  expression : String
  derivative : String

def Entry.step (entry : Entry) (index : Nat) : Step :=
  ⟨index, entry.rule, entry.expression, entry.derivative⟩

def extend (steps : Array Step) (entries : List Entry) : Array Step :=
  steps ++ (entries.mapIdx fun k entry => entry.step (steps.size + k)).toArray

@[simp] theorem extend_nil (steps : Array Step) : extend steps [] = steps := by
  simp [extend]

theorem extend_append (steps : Array Step) (entries entries' : List Entry) :
    extend steps (entries ++ entries') = extend (extend steps entries) entries' := by
  simp [extend, List.mapIdx_append, Array.append_assoc, Nat.add_comm, Nat.add_left_comm]

theorem extend_ids (steps : Array Step) (entries : List Entry) :
    ((extend steps entries).toList.drop steps.size).map Step.id =
      entries.mapIdx fun k entry =>
        "step_" ++ toString (steps.size + k) ++ "_" ++ entry.rule.key := by
  simp only [extend, Array.toList_append, List.mapIdx_eq_zipIdx_map, ← Array.length_toList,
    List.drop_left, List.map_map]
  rfl

/-- The computation has this outcome and appends these entries, whatever was recorded. -/
def Runs {β : Type} (computation : Differentiation β) (outcome : Except Fault β)
    (entries : List Entry) : Prop :=
  ∀ steps, computation steps = match outcome with
    | .ok value => .ok value (extend steps entries)
    | .error fault => .error fault (extend steps entries)

section

variable {β γ : Type} {computation : Differentiation β} {next : β → Differentiation γ}
variable {entries entries' : List Entry}

theorem runs_lift (outcome : Except Fault β) : Runs (lift outcome) outcome [] := by
  intro steps
  cases outcome with
  | ok value | error fault =>
      rw [extend_nil]
      rfl

theorem Runs.bind {value : β} {outcome : Except Fault γ}
    (first : Runs computation (.ok value) entries)
    (second : Runs (next value) outcome entries') :
    Runs (computation >>= next) outcome (entries ++ entries') := by
  intro steps
  rw [Outcome.bind_ok_of_ok (first steps), second, extend_append]

theorem record_runs {rule : Rule} {tree result : Expr α} {expression derivative : String}
    (before : tree.toLatex = .ok expression) (after : result.toLatex = .ok derivative) :
    Runs (record rule tree result) (.ok result) [⟨rule, expression, derivative⟩] := by
  intro steps
  unfold record
  rw [before, after]
  rfl

theorem Runs.fails {fault : Fault} (first : Runs computation (.error fault) entries) :
    Runs (computation >>= next) (.error fault) entries :=
  fun steps => Outcome.bind_error_of_error (first steps)

end

end Differentiation

namespace Expr

open Differentiation

def operands (v : String) : Expr α → List (Expr α)
  | missing | num _ | var _ => []
  | call _ arg => [arg]
  | signed _ operand => [operand]
  | marked _ operand =>
      match operand.underMarkers with
      | call _ arg => [arg]
      | _ => []
  | binary op lhs rhs =>
      match op with
      | .add | .sub | .div => [lhs, rhs]
      | .mul => [rhs, lhs]
      | .pow =>
          if rhs.isConstant v then
            match rhs.optimize with
            | .ok n => if n.isZero then [] else [lhs]
            | .error _ => []
          else if lhs.isConstant v then [rhs]
          else [lhs, rhs]
      | .other _ => []

def rule? : Expr α → Option Rule
  | missing => none
  | num _ => some .constant
  | var _ => some .variableName
  | call _ _ => some .chain
  | signed _ _ => some .sign
  | marked _ _ => some .opaqueChain
  | binary op _ _ =>
      match op with
      | .add | .sub => some .sum
      | .mul => some .product
      | .div => some .quotient
      | .pow => some .power
      | .other _ => none

structure Tells (tree result : Expr α) (entry : Entry) : Prop where
  rule : tree.rule? = some entry.rule
  expression : tree.toLatex = .ok entry.expression
  derivative : result.toLatex = .ok entry.derivative

/-- The entry tells the derivative that a part of the tree has when nothing was recorded before. -/
def Honest (v : String) (tree : Expr α) (entry : Entry) : Prop :=
  ∃ part result, part.Within tree ∧ part.rawDerivative v = .ok result ∧ Tells part result entry

def Records (v : String) (tree : Expr α) (entries : List Entry) : Prop :=
  ∃ result, tree.differentiate v #[] = .ok result (extend #[] entries)

/-- The computation differentiates the operands one by one and then records the tree, or it
fails on the way. -/
inductive Concludes (v : String) (tree : Expr α) (computation : Differentiation (Expr α))
    (operands : List (Expr α)) : Prop
  | succeeds {result : Expr α} {parts : List (List Entry)} {last : Entry}
      (runs : Runs computation (.ok result) (parts.flatten ++ [last]))
      (recorded : List.Forall₂ (Records v) operands parts)
      (honest : ∀ entry ∈ parts.flatten, Honest v tree entry) (own : Tells tree result last)
  | fails {fault : Fault} {entries : List Entry} (runs : Runs computation (.error fault) entries)
      (honest : ∀ entry ∈ entries, Honest v tree entry)

def RecordsHonestly (v : String) (tree : Expr α) : Prop :=
  ∃ outcome entries, Runs (tree.differentiate v) outcome entries ∧
    ∀ entry ∈ entries, Honest v tree entry

section

variable {v : String} {tree part : Expr α} {rest : List (Expr α)}

omit [Scalar α] in
theorem Within.trans {node : Expr α} (inner : node.Within part) (outer : part.Within tree) :
    node.Within tree := by
  induction outer with
  | root => exact inner
  | under child within induction => exact .under child induction

theorem raw_derivative_of_runs {outcome : Except Fault (Expr α)} {entries : List Entry}
    (runs : Runs (tree.differentiate v) outcome entries) : tree.rawDerivative v = outcome := by
  unfold rawDerivative EStateM.run
  rw [runs #[]]
  cases outcome with
  | ok | error => rfl

theorem Honest.within {entry : Entry} (honest : Honest v part entry) (within : part.Within tree) :
    Honest v tree entry := by
  obtain ⟨node, result, inside, done, tells⟩ := honest
  exact ⟨node, result, inside.trans within, done, tells⟩

theorem record_concludes {rule : Rule} (ruled : tree.rule? = some rule) (result : Expr α) :
    Concludes v tree (record rule tree result) [] := by
  cases before : tree.toLatex with
  | error fault =>
      unfold record
      rw [before]
      exact .fails (runs_lift _).fails (List.forall_mem_nil _)
  | ok expression =>
      cases after : result.toLatex with
      | error fault =>
          unfold record
          rw [before, after]
          exact .fails ((runs_lift _).bind (runs_lift _).fails) (List.forall_mem_nil _)
      | ok derivative =>
          have runs : Runs (record rule tree result) (.ok result)
              (List.flatten [] ++ [⟨rule, expression, derivative⟩]) := record_runs before after
          exact .succeeds runs .nil (List.forall_mem_nil _) ⟨ruled, before, after⟩

theorem lift_concludes {β : Type} {outcome : Except Fault β} {next : β → Differentiation (Expr α)}
    (continues : ∀ value, outcome = .ok value → Concludes v tree (next value) rest) :
    Concludes v tree (lift outcome >>= next) rest := by
  cases outcome with
  | error fault => exact .fails (runs_lift _).fails (List.forall_mem_nil _)
  | ok value =>
      cases continues value rfl with
      | succeeds runs recorded honest own =>
          exact .succeeds ((runs_lift _).bind runs) recorded honest own
      | fails runs honest => exact .fails ((runs_lift _).bind runs) honest

theorem operand_concludes {next : Expr α → Differentiation (Expr α)}
    (known : part.RecordsHonestly v) (within : part.Within tree)
    (continues : ∀ value, Concludes v tree (next value) rest) :
    Concludes v tree (part.differentiate v >>= next) (part :: rest) := by
  obtain ⟨outcome, entries, runs, honest⟩ := known
  have honestTree : ∀ entry ∈ entries, Honest v tree entry := fun entry inside =>
    (honest entry inside).within within
  cases outcome with
  | error fault => exact .fails runs.fails honestTree
  | ok value =>
      have recorded : part.Records v entries := ⟨value, runs #[]⟩
      cases continues value with
      | @succeeds result parts last runs' recorded' honest' own =>
          have both := runs.bind runs'
          rw [← List.append_assoc, ← List.flatten_cons] at both
          refine .succeeds both (.cons recorded recorded') ?_ own
          intro entry inside
          rw [List.flatten_cons] at inside
          exact (List.mem_append.1 inside).elim (honestTree entry) (honest' entry)
      | fails runs' honest' =>
          refine .fails (runs.bind runs') fun entry inside => ?_
          exact (List.mem_append.1 inside).elim (honestTree entry) (honest' entry)

theorem Concludes.records_honestly (concludes : Concludes v tree (tree.differentiate v) rest) :
    tree.RecordsHonestly v := by
  cases concludes with
  | succeeds runs recorded honest own =>
      refine ⟨_, _, runs, fun entry inside => ?_⟩
      rcases List.mem_append.1 inside with inside | inside
      · exact honest entry inside
      · cases List.mem_singleton.1 inside
        exact ⟨tree, _, .root, raw_derivative_of_runs runs, own⟩
  | fails runs honest => exact ⟨_, _, runs, honest⟩

omit [Scalar α] in
theorem under_markers_within (tree : Expr α) : tree.underMarkers.Within tree := by
  induction tree with
  | marked op operand inner =>
      cases op with
      | prime => exact .under (by simp [children]) inner
      | other symbol => exact .root
  | _ => exact .root

theorem argument_derivative_eq {name : String} {arg : Expr α}
    (under : tree.underMarkers = call name arg) :
    tree.argumentDerivative v = arg.differentiate v := by
  induction tree with
  | marked op operand inner =>
      cases op with
      | prime =>
          rw [argumentDerivative]
          exact inner under
      | other symbol => cases under
  | call name' arg' =>
      cases under
      rw [argumentDerivative]
  | _ => cases under

theorem power_concludes {lhs rhs : Expr α} (first : lhs.RecordsHonestly v)
    (second : rhs.RecordsHonestly v) :
    Concludes v (binary .pow lhs rhs) ((binary .pow lhs rhs).differentiate v)
      ((binary .pow lhs rhs).operands v) := by
  have inLeft : lhs.Within (binary .pow lhs rhs) := .under (by simp [children]) .root
  have inRight : rhs.Within (binary .pow lhs rhs) := .under (by simp [children]) .root
  rw [differentiate, operands]
  by_cases constant : rhs.isConstant v = true
  · simp only [if_pos constant]
    refine lift_concludes fun n optimized => ?_
    obtain ⟨rhs', whole, optimized⟩ := Outcome.bind_eq_ok.1 optimized
    cases eq_of_whole whole
    rw [optimized]
    by_cases zero : n.isZero = true
    · simp only [if_pos zero]
      exact record_concludes rfl _
    · simp only [if_neg zero]
      refine lift_concludes fun _ _ => operand_concludes first inLeft fun left => ?_
      exact record_concludes rfl _
  · simp only [if_neg constant]
    refine lift_concludes fun _ _ => lift_concludes fun _ _ => ?_
    by_cases constantBase : lhs.isConstant v = true
    · simp only [if_pos constantBase]
      exact operand_concludes second inRight fun right => record_concludes rfl _
    · simp only [if_neg constantBase]
      refine operand_concludes first inLeft fun left => ?_
      exact operand_concludes second inRight fun right => record_concludes rfl _

theorem binary_concludes {op : BinaryOp} {lhs rhs : Expr α} (first : lhs.RecordsHonestly v)
    (second : rhs.RecordsHonestly v) :
    Concludes v (binary op lhs rhs) ((binary op lhs rhs).differentiate v)
      ((binary op lhs rhs).operands v) := by
  have inLeft : lhs.Within (binary op lhs rhs) := .under (by simp [children]) .root
  have inRight : rhs.Within (binary op lhs rhs) := .under (by simp [children]) .root
  cases op with
  | add | sub =>
      rw [differentiate, operands]
      refine operand_concludes first inLeft fun left => ?_
      exact operand_concludes second inRight fun right => record_concludes rfl _
  | mul =>
      rw [differentiate, operands]
      refine lift_concludes fun _ _ => operand_concludes second inRight fun right => ?_
      refine operand_concludes first inLeft fun left => lift_concludes fun _ _ => ?_
      exact record_concludes rfl _
  | div =>
      rw [differentiate, operands]
      refine operand_concludes first inLeft fun left => ?_
      refine lift_concludes fun _ _ => lift_concludes fun _ _ => ?_
      exact operand_concludes second inRight fun right => record_concludes rfl _
  | pow => exact power_concludes first second
  | other symbol =>
      rw [differentiate]
      exact .fails (runs_lift (.error _)) (List.forall_mem_nil _)

theorem marked_concludes {op : MarkOp} {operand : Expr α}
    (argument : ∀ name arg, operand.underMarkers = call name arg → arg.RecordsHonestly v) :
    Concludes v (marked op operand) ((marked op operand).differentiate v)
      ((marked op operand).operands v) := by
  cases op with
  | other symbol =>
      rw [differentiate]
      exact .fails (runs_lift (.error _)) (List.forall_mem_nil _)
  | prime =>
      rw [differentiate, operands]
      cases under : operand.underMarkers with
      | call name arg =>
          rw [argument_derivative_eq under]
          have inside : (call name arg).Within operand := under ▸ under_markers_within operand
          have within : arg.Within (marked .prime operand) :=
            .under (by simp [children]) (Within.trans (.under (by simp [children]) .root) inside)
          refine lift_concludes fun _ _ => lift_concludes fun outer _ => ?_
          exact operand_concludes (argument name arg under) within fun inner =>
            record_concludes rfl _
      | missing | num | var | binary | signed | marked =>
          have refused : ∃ fault, operand.requireMarkedCall = .error fault := by
            rw [requireMarkedCall, under]
            exact ⟨_, rfl⟩
          obtain ⟨fault, refused⟩ := refused
          rw [refused]
          exact .fails (runs_lift _).fails (List.forall_mem_nil _)

/-- Every tree is recorded after the operands that its rule differentiates. -/
theorem differentiate_concludes (v : String) (tree : Expr α) :
    Concludes v tree (tree.differentiate v) (tree.operands v) ∧
      ∀ name arg, tree.underMarkers = call name arg → arg.RecordsHonestly v := by
  induction tree with
  | missing =>
      refine ⟨?_, fun _ _ under => by cases under⟩
      rw [differentiate]
      exact .fails (runs_lift (.error _)) (List.forall_mem_nil _)
  | num value =>
      refine ⟨?_, fun _ _ under => by cases under⟩
      rw [differentiate]
      exact record_concludes rfl _
  | var name =>
      refine ⟨?_, fun _ _ under => by cases under⟩
      rw [differentiate]
      exact record_concludes rfl _
  | binary op lhs rhs left right =>
      refine ⟨?_, fun _ _ under => by cases under⟩
      exact binary_concludes left.1.records_honestly right.1.records_honestly
  | signed op operand inner =>
      refine ⟨?_, fun _ _ under => by cases under⟩
      rw [differentiate]
      refine operand_concludes inner.1.records_honestly (.under (by simp [children]) .root) ?_
      exact fun derivative => lift_concludes fun _ _ => record_concludes rfl _
  | marked op operand inner =>
      refine ⟨marked_concludes inner.2, fun name arg under => ?_⟩
      cases op with
      | prime => exact inner.2 name arg under
      | other symbol => cases under
  | call name arg inner =>
      constructor
      · rw [differentiate]
        refine lift_concludes fun outer _ => ?_
        exact operand_concludes inner.1.records_honestly (.under (by simp [children]) .root)
          fun derivative => record_concludes rfl _
      · intro name' arg' under
        cases under
        exact inner.1.records_honestly

end

/-- A run that succeeds appends the steps of the operands and then its own, numbered on from the
steps that were there; a run that fails leaves those as they are. Every step that is appended
is true of a part of the tree, whatever was recorded before. -/
theorem steps_of_differentiate (v : String) (tree : Expr α) (steps : Array Step) :
    match tree.differentiate v steps with
    | .ok result after => ∃ parts last,
        after = extend steps (parts.flatten ++ [last]) ∧
        (after.toList.drop steps.size).map Step.id =
          (parts.flatten ++ [last]).mapIdx (fun k entry =>
            "step_" ++ toString (steps.size + k) ++ "_" ++ entry.rule.key) ∧
        List.Forall₂ (Records v) (tree.operands v) parts ∧
        tree.rawDerivative v = .ok result ∧ Tells tree result last ∧
        ∀ entry ∈ parts.flatten ++ [last], Honest v tree entry
    | .error fault after => ∃ entries,
        after = extend steps entries ∧ tree.rawDerivative v = .error fault ∧
        ∀ entry ∈ entries, Honest v tree entry := by
  cases (differentiate_concludes v tree).1 with
  | @succeeds result parts last runs recorded honest own =>
      rw [runs steps]
      have done := raw_derivative_of_runs runs
      refine ⟨parts, last, rfl, extend_ids _ _, recorded, done, own, fun entry inside => ?_⟩
      rcases List.mem_append.1 inside with inside | inside
      · exact honest entry inside
      · cases List.mem_singleton.1 inside
        exact ⟨tree, result, .root, done, own⟩
  | fails runs honest =>
      rw [runs steps]
      exact ⟨_, rfl, raw_derivative_of_runs runs, honest⟩

-- A product takes the derivative of its right factor first.
example : (match (binary .mul (call "sin" (var "x")) (num (2 : Float))).differentiate "x" #[] with
    | .ok _ after => after.toList.map Step.id
    | .error _ _ => []) =
      ["step_0_constantRule", "step_1_variableRule", "step_2_chainRule", "step_3_productRule"] := by
  rfl

end Expr

end Fluxion
