import Fluxion.Json.Writer
import Fluxion.Report

/-!
The events of a streamed series of derivatives: one for each derivative, and behind
them one that says that the series is complete or why it is not.
-/

namespace Fluxion.Service

inductive Event
  | derivative (entry : DerivativeEntry)
  | complete (order : Int)
  | failed (detail : String)
  deriving DecidableEq, Repr

def stepJson (step : Step) : Json :=
  .object [("id", .str step.id), ("rule", .str step.rule.key),
    ("expression_latex", .str step.expression), ("derivative_latex", .str step.derivative)]

namespace Event

def toJson : Event → Json
  | derivative entry =>
      .object [("type", .str "derivative"), ("order", .int entry.order),
        ("derivative", .str entry.derivative), ("derivative_latex", .str entry.latex),
        ("steps", .list (entry.steps.map stepJson))]
  | complete order => .object [("type", .str "complete"), ("order", .int order)]
  | failed detail => .object [("type", .str "error"), ("detail", .str detail)]

/-- An event as a chunk of the stream: one line of data and an empty line. -/
def chunk (event : Event) : String := "data: " ++ event.toJson.write ++ "\n\n"

def detail (fault : Fault) : String :=
  if fault.isExpressionFault then fault.message
  else "Unexpected server error: " ++ fault.message

end Event

def derivativeEvents (α : Type) [Scalar α] (text : String) (order : Int)
    (variableName : String) (tooDeep : Expr α → Bool := Expr.neverTooDeep) : List Event :=
  let (entries, fault) := DerivativeSeries.all text order variableName tooDeep
  entries.map Event.derivative ++
    [match fault with
      | none => .complete order
      | some fault => .failed (Event.detail fault)]

end Fluxion.Service
