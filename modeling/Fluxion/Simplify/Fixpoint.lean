import Fluxion.Simplify.Rules

/-!
Optimization: sweeps of folding and simplification until a sweep changes nothing.
The number of sweeps is limited, and so is the recursion.
-/

namespace Fluxion

variable {α : Type} [Scalar α]

def sweepLimit : Nat := 10000

/-- An optimized tree and the number of sweeps that it took, the last of which
changed nothing. -/
structure Optimized (α : Type) where
  tree : Expr α
  sweeps : Nat

namespace Simplify

def sweep (epsilon : α) (tree : Expr α) : Except Fault (Pass α) := do
  let folded ← foldConstants tree
  let simplified ← simplify epsilon folded.tree
  pure ⟨simplified.tree, folded.changed || simplified.changed⟩

/-- Sweeps until nothing changes, `left` times at most after `done` sweeps. -/
def sweepsFrom (epsilon : α) : Nat → Nat → Expr α → Except Fault (Optimized α)
  | 0, _, _ => throw (.simplification (.unsettled sweepLimit))
  | left + 1, done, tree => do
      let pass ← sweep epsilon tree
      if pass.changed then sweepsFrom epsilon left (done + 1) pass.tree
      else pure ⟨pass.tree, done + 1⟩

def run (epsilon : α) (tree : Expr α) : Except Fault (Optimized α) :=
  sweepsFrom epsilon sweepLimit 0 tree

end Simplify

namespace Expr

def optimize (tree : Expr α) : Except Fault (Expr α) := do
  return (← Simplify.run Scalar.tolerance tree).tree

end Expr

end Fluxion
