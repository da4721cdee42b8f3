import Fluxion.Expr.Evaluation
import Fluxion.Expr.Taylor
import Fluxion.Grammar.Parse
import Fluxion.Notation.Infix

/-!
Questions about an expression given as text, with answers given as text:
successive derivatives with their steps, the value at a point, and the Taylor
polynomial around one. Derivatives can be asked for one at a time; the whole
series is the same questions asked until there is no further answer.

A tree can outgrow what recursion gets to the bottom of, and how much that is
depends on the machine. Every question therefore takes the trees that are too deep
to be walked as a parameter. Unless it is told otherwise there are none.
-/

namespace Fluxion

section

variable {α : Type}

/-- The outcome of work on the expression of this text, if there was the depth for it. -/
def guardDepth {β : Type} (text : String) : Option β → Except Fault β
  | some result => pure result
  | none => throw (.request (.tooDeep text))

namespace Expr

def neverTooDeep (_ : Expr α) : Bool := false

/-- The tree to walk, in work on the expression of this text. -/
def walkable (tooDeep : Expr α → Bool) (text : String) (tree : Expr α) :
    Except Fault (Expr α) :=
  guardDepth text (if tooDeep tree then none else some tree)

@[simp] theorem walkable_never_too_deep (text : String) (tree : Expr α) :
    tree.walkable neverTooDeep text = .ok tree := rfl

theorem walkable_eq_ok {tooDeep : Expr α → Bool} {text : String} {tree walked : Expr α} :
    tree.walkable tooDeep text = .ok walked ↔ tooDeep tree = false ∧ tree = walked := by
  unfold walkable
  cases tooDeep tree <;> simp [guardDepth, pure, Except.pure, throw, throwThe, MonadExceptOf.throw]

end Expr

end

variable {α : Type} [Scalar α]

structure DerivativeEntry where
  order : Nat
  derivative : String
  latex : String
  steps : List Step
  deriving DecidableEq, Repr

inductive DerivativeSeries (α : Type)
  /-- Nothing has been looked at yet, not even the order. -/
  | planned (text : String) (order : Int) (variableName : String)
  /-- The derivatives up to `done` are out and `left` are still to come. -/
  | running (text : String) (current : Expr α) (done left : Nat) (variableName : String)
  | finished

namespace DerivativeSeries

/-- One differentiation: the entry of an order and the tree that the next one
starts from. The tree, its derivative and what that is optimized to are walked. -/
def entry (text : String) (current : Expr α) (order : Nat) (variableName : String)
    (tooDeep : Expr α → Bool := Expr.neverTooDeep) : Except Fault (DerivativeEntry × Expr α) := do
  let current ← current.walkable tooDeep text
  match (current.differentiate variableName).run #[] with
  | .error fault _ => throw fault
  | .ok raw steps => do
      let raw ← raw.walkable tooDeep text
      let tree ← raw.optimize
      let tree ← tree.walkable tooDeep text
      let written ← tree.toInfix
      let latex ← tree.toLatex
      return (⟨order, written, latex, steps.toList⟩, tree)

def advance (text : String) (current : Expr α) (done left : Nat) (variableName : String)
    (tooDeep : Expr α → Bool := Expr.neverTooDeep) :
    Except Fault (Option DerivativeEntry) × DerivativeSeries α :=
  match left with
  | 0 => (.ok none, finished)
  | left + 1 =>
      match entry text current (done + 1) variableName tooDeep with
      | .error fault => (.error fault, finished)
      | .ok (result, tree) => (.ok (some result), running text tree (done + 1) left variableName)

/-- The next entry, or none when the series is complete. A failure ends it. -/
def next (series : DerivativeSeries α) (tooDeep : Expr α → Bool := Expr.neverTooDeep) :
    Except Fault (Option DerivativeEntry) × DerivativeSeries α :=
  match series with
  | planned text order variableName =>
      if order < 1 then (.error (.request (.orderTooLow order)), finished)
      else
        match parse text with
        | .error fault => (.error fault, finished)
        | .ok tree => advance text tree 0 order.toNat variableName tooDeep
  | running text current done left variableName =>
      advance text current done left variableName tooDeep
  | finished => (.ok none, finished)

/-- The entries up to the end of the series, `limit` of them at most, and the
fault that ended it if one did. -/
def collect (limit : Nat) (series : DerivativeSeries α)
    (tooDeep : Expr α → Bool := Expr.neverTooDeep) : List DerivativeEntry × Option Fault :=
  match limit with
  | 0 => ([], none)
  | limit + 1 =>
      match series.next tooDeep with
      | (.error fault, _) => ([], some fault)
      | (.ok none, _) => ([], none)
      | (.ok (some entry), rest) =>
          let (entries, fault) := collect limit rest tooDeep
          (entry :: entries, fault)

/-- All entries of a series of this order. One more question than there are
entries finds a series of order zero or less out of order. -/
def all (text : String) (order : Int) (variableName : String)
    (tooDeep : Expr α → Bool := Expr.neverTooDeep) : List DerivativeEntry × Option Fault :=
  collect (order.toNat + 1) (planned text order variableName : DerivativeSeries α) tooDeep

end DerivativeSeries

structure DerivativeReport where
  expression : String
  variableName : String
  derivatives : List DerivativeEntry
  deriving DecidableEq, Repr

def reportDerivatives (α : Type) [Scalar α] (text : String) (order : Int)
    (variableName : String) (tooDeep : Expr α → Bool := Expr.neverTooDeep) :
    Except Fault DerivativeReport :=
  match DerivativeSeries.all text order variableName tooDeep with
  | (entries, none) => .ok ⟨text, variableName, entries⟩
  | (_, some fault) => .error fault

structure ValueReport (α : Type) where
  expression : String
  /-- The expression with the number put in, optimized. -/
  substituted : String
  substitutedLatex : String
  /-- The value, if the expression has one. -/
  value : Option α

/-- The value of a text at a point. An expression without a value is no failure. -/
def reportValue (text : String) (point : α) (variableName : String)
    (tooDeep : Expr α → Bool := Expr.neverTooDeep) : Except Fault (ValueReport α) := do
  let tree : Expr α ← parse text
  let substituted ← (← tree.walkable tooDeep text).optimizedAt point variableName
  let value ← match tree.evaluate point variableName Bindings.none with
    | .ok value => pure (some value)
    | .error (.evaluation _) => pure none
    | .error fault => throw fault
  return ⟨text, ← substituted.toInfix, ← substituted.toLatex, value⟩

structure TaylorReport where
  expression : String
  polynomial : String
  polynomialLatex : String
  deriving DecidableEq, Repr

/-- The Taylor polynomial of a text, with the remainder behind its LaTeX. A negative
order is refused before anything is walked. -/
def reportTaylor (text : String) (order : Int) (point : α) (variableName : String)
    (tooDeep : Expr α → Bool := Expr.neverTooDeep) : Except Fault TaylorReport := do
  let tree : Expr α ← parse text
  let tree ← if order < 0 then pure tree else tree.walkable tooDeep text
  let polynomial ← tree.taylorPolynomial order point variableName
  let polynomial ← polynomial.walkable tooDeep text
  let written ← polynomial.toInfix
  let latex ← polynomial.toLatex
  return ⟨text, written, latex ++ " + " ++ (← Expr.remainderLatex order point variableName)⟩

end Fluxion
