import Fluxion.Notation.Latex

/-!
The steps of a differentiation: which rule fired on which expression, and what
came of it. Steps are numbered in the order in which the rules finish.
-/

namespace Fluxion

inductive Rule
  | constant
  | variableName
  | chain
  | sum
  | product
  | quotient
  | power
  | sign
  | opaqueChain
  deriving DecidableEq, Repr

namespace Rule

def key : Rule → String
  | constant => "constantRule"
  | variableName => "variableRule"
  | chain => "chainRule"
  | sum => "sumRule"
  | product => "productRule"
  | quotient => "quotientRule"
  | power => "powerRule"
  | sign => "signRule"
  | opaqueChain => "opaqueChainRule"

end Rule

structure Step where
  /-- How many steps were recorded before this one. -/
  index : Nat
  rule : Rule
  /-- The LaTeX of the expression that was differentiated. -/
  expression : String
  /-- The LaTeX of its derivative. -/
  derivative : String
  deriving DecidableEq, Repr

def Step.id (step : Step) : String := "step_" ++ toString step.index ++ "_" ++ step.rule.key

/-- A differentiation under way: the steps recorded so far, which a failure
keeps. -/
abbrev Differentiation (β : Type) := EStateM Fault (Array Step) β

namespace Differentiation

def lift {β : Type} : Except Fault β → Differentiation β
  | .ok value => pure value
  | .error fault => throw fault

variable {α : Type} [Scalar α]

def record (rule : Rule) (expression derivative : Expr α) : Differentiation (Expr α) := do
  let before ← lift expression.toLatex
  let after ← lift derivative.toLatex
  modify fun steps => steps.push ⟨steps.size, rule, before, after⟩
  pure derivative

end Differentiation

end Fluxion
