import Fluxion.Random.Sample
import Fluxion.Scalar.Double
import Fluxion.Service.Event
import Fluxion.Service.Request
import Fluxion.Service.Symbols

/-!
The routes of the service. A request is read, its expression made plain and
checked for emptiness, and the answer of the engine becomes a reply. Faults of the
expression are the client's; any other fault is the service's own.
-/

namespace Fluxion.Service

inductive Reply
  /-- The service is there, in a word or with a message. -/
  | alive (status : String) (message : Option String)
  | derivatives (report : DerivativeReport)
  | value (report : ValueReport Float)
  | polynomial (report : TaylorReport)
  | sample (text latex : String)
  | stream (chunks : List String)
  | refused (status : Nat) (detail : String)
  | invalid (problems : List Problem)

namespace Reply

def status : Reply → Nat
  | refused status _ => status
  | invalid _ => 422
  | _ => 200

def streamType : String := "text/event-stream"

def streamCaching : String := "no-cache"

end Reply

def refusal (fault : Fault) : Reply :=
  .refused (if fault.isExpressionFault then 400 else 500) fault.message

def withExpression (expression : String) (answer : String → Reply) : Reply :=
  let plain := normalize expression
  if isEmptyExpression plain then .refused 400 "Expression cannot be empty." else answer plain

def withRequest {β : Type} (request : Checked β) (answer : β → Reply) : Reply :=
  match request with
  | .valid request => answer request
  | .invalid problems => .invalid (problems.mergeSort Problem.before)

def ping : Reply := .alive "ok" (some "Backend is alive")

def uptime : Reply := .alive "alive" none

def differentiate (body : Json) (tooDeep : Expr Float → Bool := Expr.neverTooDeep) : Reply :=
  withRequest (DerivativeRequest.read body) fun request =>
    withExpression request.expression fun expression =>
      match reportDerivatives Float expression request.order request.variableName tooDeep with
      | .ok report => .derivatives report
      | .error fault => refusal fault

def evaluate (body : Json) (tooDeep : Expr Float → Bool := Expr.neverTooDeep) : Reply :=
  withRequest (ValueRequest.read body) fun request =>
    withExpression request.expression fun expression =>
      match reportValue expression request.point request.variableName tooDeep with
      | .ok report => .value report
      | .error fault => refusal fault

def taylor (body : Json) (tooDeep : Expr Float → Bool := Expr.neverTooDeep) : Reply :=
  withRequest (TaylorRequest.read body) fun request =>
    withExpression request.expression fun expression =>
      match reportTaylor expression request.order request.point request.variableName tooDeep with
      | .ok report => .polynomial report
      | .error fault => refusal fault

/-- A streamed series. Its order is checked behind its expression. -/
def solveStream (expression : String) (order : Int) (variableName : String)
    (tooDeep : Expr Float → Bool := Expr.neverTooDeep) : Reply :=
  withExpression expression fun expression =>
    if 1 ≤ order ∧ order ≤ highestOrder then
      .stream ((derivativeEvents Float expression order variableName tooDeep).map Event.chunk)
    else .refused 400 ("Order must be between 1 and " ++ toString highestOrder ++ ".")

def generationFailure (detail : String) : Reply := .refused 500 ("Generation failed: " ++ detail)

/-- A random expression. The fields that are null are reported in the order in which
drawing needs them. -/
def generate (body : Json) : Reply :=
  withRequest (SampleRequest.read body) fun request =>
    match request.names, request.terms, request.depth with
    | none, _, _ => generationFailure "'NoneType' object is not iterable"
    | _, none, _ =>
        generationFailure "'NoneType' object cannot be interpreted as an integer"
    | _, _, none =>
        generationFailure "'>=' not supported between instances of 'int' and 'NoneType'"
    | some names, some terms, some depth =>
        let plan : SamplePlan := ⟨terms.toNat, depth.toNat, names⟩
        let written : Except Fault (String × String) := do
          let tree : Expr Float ← Sample.expression plan (request.seed.getD 0)
          return (← tree.toInfix, ← tree.toLatex)
        match written with
        | .ok (text, latex) => .sample text latex
        | .error fault => generationFailure fault.message

end Fluxion.Service
