import Fluxion.Expr.Basic

/-!
The depth of a tree, measured by a walk with a list of pending subtrees instead of
a call per level, so that a chain of any length can be measured. Main statement:
every round of the walk takes one node away from what is pending, so that it ends.
-/

namespace Fluxion.Expr

variable {α : Type}

def pendingSize : List (Expr α × Nat) → Nat
  | [] => 0
  | (tree, _) :: rest => tree.size + pendingSize rest

/-- A walk under way: the subtrees that are still to be visited, each with its
level and the one pushed last in front, and the deepest level seen. -/
structure Walk (α : Type) where
  pending : List (Expr α × Nat)
  seen : Nat

namespace Walk

def start (tree : Expr α) : Walk α := ⟨[(tree, 1)], 0⟩

/-- One round: the subtree pushed last is taken off, its level is seen, and its
children are pushed from left to right. -/
def step : Walk α → Option (Walk α)
  | ⟨[], _⟩ => none
  | ⟨(tree, level) :: rest, seen⟩ =>
      some ⟨(tree.children.map (·, level + 1)).reverse ++ rest, max seen level⟩

theorem pending_size_step {walk next : Walk α} (step : walk.step = some next) :
    pendingSize next.pending + 1 = pendingSize walk.pending := by
  obtain ⟨_ | ⟨⟨tree, level⟩, rest⟩, seen⟩ := walk
  · cases step
  · obtain rfl := Option.some.inj step
    cases tree <;> simp [children, pendingSize, size] <;> omega

/-- The deepest level seen when nothing is pending any more. -/
def deepest (walk : Walk α) : Nat :=
  match _ : walk.step with
  | none => walk.seen
  | some next => next.deepest
termination_by pendingSize walk.pending
decreasing_by exact Nat.le_of_eq (pending_size_step (by assumption))

theorem deepest_of_end {walk : Walk α} (ended : walk.step = none) : walk.deepest = walk.seen := by
  rw [deepest]
  split
  · rfl
  · simp_all

theorem deepest_of_step {walk next : Walk α} (step : walk.step = some next) :
    walk.deepest = next.deepest := by
  rw [deepest]
  split <;> simp_all

end Walk

def depth (tree : Expr α) : Nat := (Walk.start tree).deepest

end Fluxion.Expr
