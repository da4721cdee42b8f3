import Fluxion.Proofs.Expr.Built
import Fluxion.Proofs.Expr.Height

/-!
The walk over a tree round by round. A round takes one node away from what is pending and
leaves the level that the walk is heading for as it is, so the number of rounds and the
result are settled before the first. Main statement: the walk over a tree ends after one
round for each node and has then seen the depth by recursion; a copy of the tree and the
tree with a number put in are of that depth as well.
-/

namespace Fluxion.Expr

variable {α : Type}

namespace Walk

def after : Nat → Walk α → Option (Walk α)
  | 0, walk => some walk
  | rounds + 1, walk => walk.step.bind (after rounds)

variable {walk last : Walk α} {rounds : Nat}

theorem step_of_pending (pending : 0 < pendingSize walk.pending) :
    ∃ next, walk.step = some next := by
  obtain ⟨_ | ⟨⟨tree, level⟩, rest⟩, seen⟩ := walk
  · cases pending
  · exact ⟨_, rfl⟩

theorem end_of_pending (nothing : pendingSize walk.pending = 0) : walk.step = none := by
  cases step : walk.step with
  | none => rfl
  | some next =>
      have fewer := pending_size_step step
      omega

/-- What holds of a walk at every moment: the nodes still pending make up for the rounds
that are over, and the level that it is heading for is the same. -/
theorem goal_after (lasts : walk.after rounds = some last) :
    pendingSize last.pending + rounds = pendingSize walk.pending ∧ last.goal = walk.goal := by
  induction rounds generalizing walk with
  | zero =>
      cases lasts
      exact ⟨rfl, rfl⟩
  | succ rounds induction =>
      obtain ⟨next, step, remaining⟩ := Option.bind_eq_some_iff.1 lasts
      obtain ⟨count, same⟩ := induction remaining
      have fewer := pending_size_step step
      exact ⟨by omega, same.trans (goal_step step)⟩

theorem exists_after (enough : rounds ≤ pendingSize walk.pending) :
    ∃ last, walk.after rounds = some last := by
  induction rounds generalizing walk with
  | zero => exact ⟨walk, rfl⟩
  | succ rounds induction =>
      obtain ⟨next, step⟩ := step_of_pending (Nat.lt_of_lt_of_le (Nat.succ_pos rounds) enough)
      have fewer := pending_size_step step
      have left : rounds ≤ pendingSize next.pending := by omega
      obtain ⟨last, lasts⟩ := induction left
      exact ⟨last, by rw [after, step, Option.bind_some, lasts]⟩

theorem pending_size_start (tree : Expr α) : pendingSize (start tree).pending = tree.size :=
  Nat.add_zero _

theorem ends_after_size (tree : Expr α) :
    ∃ last, (start tree).after tree.size = some last ∧ last.step = none ∧
      last.seen = tree.height := by
  obtain ⟨last, lasts⟩ := exists_after (Nat.le_of_eq (pending_size_start tree).symm)
  obtain ⟨count, same⟩ := goal_after lasts
  rw [pending_size_start] at count
  have ended : last.step = none := end_of_pending (by omega)
  refine ⟨last, lasts, ended, ?_⟩
  rw [← goal_of_end ended, same, goal_start]

end Walk

/-- The depth of a tree is measured in one round for each node, it is the depth by
recursion, and it is that of every copy of the tree and of the tree with a number put in. -/
theorem depth_measured {tree : Expr α} (whole : tree.isWhole = true) :
    (∃ last, (Walk.start tree).after tree.size = some last ∧ last.step = none ∧
      last.seen = tree.depth) ∧
    tree.depth = tree.height ∧
    (∃ copy, tree.whole = .ok copy ∧ copy.depth = tree.depth) ∧
    ∀ value v, ∃ filled, tree.substitute value v = .ok filled ∧ filled.depth = tree.depth := by
  have measured := depth_eq_height tree
  refine ⟨?_, measured, ?_, fun value v => ?_⟩
  · rw [measured]
    exact Walk.ends_after_size tree
  · exact ⟨tree, by rw [whole_eq, if_pos whole], rfl⟩
  · refine ⟨tree.fillIn value v, if_pos whole, ?_⟩
    rw [depth_eq_height, height_fill_in, measured]

/-- The seven nodes of `(x + 1) * -f(x)` are four levels deep. -/
theorem depth_measured_of_product :
    let tree : Expr Float := binary .mul (binary .add (var "x") (num 1.0))
      (signed .minus (call "f" (var "x")))
    (∃ last, (Walk.start tree).after 7 = some last ∧ last.step = none ∧ last.seen = 4) ∧
    tree.depth = 4 ∧
    (∃ copy, tree.whole = .ok copy ∧ copy.depth = 4) ∧
    ∃ filled, tree.substitute 2.0 "x" = .ok filled ∧ filled.depth = 4 := by
  intro tree
  obtain ⟨ends, measured, copied, filled⟩ := depth_measured (show tree.isWhole = true from rfl)
  have deep : tree.depth = 4 := measured
  rw [deep] at ends copied filled
  exact ⟨ends, deep, copied, filled 2.0 "x"⟩

end Fluxion.Expr
