import Fluxion.Expr.Depth
import Fluxion.Expr.Substitution

/-!
The depth of a tree by recursion on the tree. The walk over pending subtrees
visits nodes in an order of its own; what ties it to the recursion is the deepest
level that it has seen or that its pending subtrees can still reach, which no round
changes. Main statement: the two depths agree on every tree.
-/

namespace Fluxion.Expr

variable {α : Type}

/-- The depth by recursion: a leaf has one level, any other node one more than its
deepest child. -/
def height : Expr α → Nat
  | missing | num _ | var _ => 1
  | binary _ lhs rhs => max lhs.height rhs.height + 1
  | signed _ operand | marked _ operand => operand.height + 1
  | call _ arg => arg.height + 1

theorem height_positive (tree : Expr α) : 0 < tree.height := by
  cases tree <;> simp [height]

theorem size_positive (tree : Expr α) : 0 < tree.size := by
  cases tree <;> simp [size]

theorem height_fill_in (value : α) (v : String) (tree : Expr α) :
    (tree.fillIn value v).height = tree.height := by
  induction tree with
  | missing | num value => rfl
  | var name =>
      rw [fillIn]
      split <;> rfl
  | binary op lhs rhs left right => simp only [fillIn, height, left, right]
  | signed op operand inner | marked op operand inner | call name operand inner =>
      exact congrArg Nat.succ inner

/-- The deepest level below the pending subtrees, each of which starts at its own. -/
def reach : List (Expr α × Nat) → Nat
  | [] => 0
  | (tree, level) :: rest => max (tree.height + level - 1) (reach rest)

/-- A node on one level reaches as far as its children on the next. -/
theorem reach_children (tree : Expr α) (level : Nat) (rest : List (Expr α × Nat)) :
    max level (reach ((tree.children.map (·, level + 1)).reverse ++ rest)) =
      reach ((tree, level) :: rest) := by
  cases tree with
  | missing | num _ | var _ => simp [children, reach, height]
  | binary op lhs rhs =>
      have left := height_positive lhs
      have right := height_positive rhs
      simp only [children, List.map_cons, List.map_nil, List.reverse_cons, List.reverse_nil,
        List.cons_append, List.nil_append, reach, height]
      omega
  | signed op operand | marked op operand | call _ operand =>
      have inner := height_positive operand
      simp only [children, List.map_cons, List.map_nil, List.reverse_cons, List.reverse_nil,
        List.cons_append, List.nil_append, reach, height]
      omega

namespace Walk

def goal (walk : Walk α) : Nat := max walk.seen (reach walk.pending)

theorem goal_step {walk next : Walk α} (step : walk.step = some next) :
    next.goal = walk.goal := by
  obtain ⟨_ | ⟨⟨tree, level⟩, rest⟩, seen⟩ := walk
  · cases step
  · obtain rfl := Option.some.inj step
    rw [goal, goal, ← reach_children, Nat.max_assoc]

theorem goal_of_end {walk : Walk α} (ended : walk.step = none) : walk.goal = walk.seen := by
  obtain ⟨_ | ⟨⟨tree, level⟩, rest⟩, seen⟩ := walk
  · exact Nat.max_zero seen
  · cases ended

theorem goal_start (tree : Expr α) : (start tree).goal = tree.height := by
  simp [start, goal, reach]

theorem deepest_eq_goal (walk : Walk α) : walk.deepest = walk.goal := by
  induction walk using deepest.induct with
  | case1 walk ended => rw [deepest_of_end ended, goal_of_end ended]
  | case2 walk next step induction => rw [deepest_of_step step, induction, goal_step step]

end Walk

theorem depth_eq_height (tree : Expr α) : tree.depth = tree.height := by
  rw [depth, Walk.deepest_eq_goal, Walk.goal_start]

end Fluxion.Expr
