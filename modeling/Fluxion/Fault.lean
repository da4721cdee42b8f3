import Fluxion.Text.Quoted

/-!
Everything that can go wrong, by cause. Faults of the engine itself concern an
expression that a user wrote or a request that a user made; the remaining faults
report a value that a caller must not pass. Each cause has one wording.
-/

namespace Fluxion

open Fluxion.Text (quoted)

inductive Stage
  | source
  | lexical
  | grammatical
  deriving DecidableEq, Repr

inductive Complaint
  | notANumber (run : String)
  | badSymbol (symbol : String)
  | nestedTooDeep (limit : Nat)
  | treeTooDeep (limit : Nat)
  | expectedClosing
  | extraLexeme
  | unexpectedEnd
  | invalidSequence (text : String)
  | custom (text : String)
  deriving DecidableEq, Repr

namespace Complaint

def message : Complaint → String
  | notANumber run => run ++ " is not a number."
  | badSymbol symbol => "Bad symbol '" ++ symbol ++ "'"
  | nestedTooDeep limit => "Expression is nested deeper than " ++ toString limit ++ " levels"
  | treeTooDeep limit => "Expression tree is deeper than " ++ toString limit ++ " levels"
  | expectedClosing => "Expected ')'"
  | extraLexeme => "Extra lexeme at the end."
  | unexpectedEnd => "Unexpected end of expression"
  | invalidSequence text => "Invalid sequence " ++ text
  | custom text => text

end Complaint

/-- A place in the source text, line and column counted from one, with the text
that stands there and the whole line when it is known. -/
structure Site where
  line : Int := 1
  column : Int := 1
  text : String := ""
  sourceLine : Option String := none
  deriving DecidableEq, Repr

def Site.report (site : Site) (complaint : String) : String :=
  let head := toString site.line ++ ":" ++ toString site.column ++ ": " ++ complaint
  match site.sourceLine with
  | some line => head ++ "\n" ++ line
  | none => head

inductive BuildFault
  | invalidNumber (shown : String)
  | namelessVariable
  | namelessFunction
  | missingOperand (symbol : String)
  | notBinary (symbol : String)
  | missingArgument (name : String)
  | missingSigned (symbol : String)
  | notSign (symbol : String)
  | missingMarked (symbol : String)
  | notMarker (symbol : String)
  | incompleteCopy
  | incompleteSubstitution
  | noSlot (kind slot : String)
  | emptyReplacement (slot : String)
  | unsupportedNumber (shown : String)
  | inconvertibleTerm (kind : String)
  | inconvertibleTree (shown : String)
  | markerWithoutCall (shown : String)
  deriving DecidableEq, Repr

def markerRule (found : String) : String :=
  "Derivative marker must wrap a function call, found " ++ found

namespace BuildFault

def message : BuildFault → String
  | invalidNumber shown => "Invalid number " ++ shown
  | namelessVariable => "Variable without a name"
  | namelessFunction => "Function without a name"
  | missingOperand symbol => "Operator '" ++ symbol ++ "' is missing an operand"
  | notBinary symbol => "'" ++ symbol ++ "' is not a binary operator"
  | missingArgument name => "Function '" ++ name ++ "' is missing its argument"
  | missingSigned symbol => "Prefix operator '" ++ symbol ++ "' is missing its operand"
  | notSign symbol => "'" ++ symbol ++ "' is not a prefix operator"
  | missingMarked symbol => "Postfix operator '" ++ symbol ++ "' is missing its operand"
  | notMarker symbol => "'" ++ symbol ++ "' is not a postfix operator"
  | incompleteCopy => "Cannot copy None"
  | incompleteSubstitution => "Cannot substitute into None"
  | noSlot kind slot => kind ++ " has no child slot '" ++ slot ++ "'"
  | emptyReplacement slot => "Cannot put an empty subtree into '" ++ slot ++ "'"
  | unsupportedNumber shown => "Unsupported number " ++ shown
  | inconvertibleTerm kind => "Cannot convert " ++ kind ++ " expressions"
  | inconvertibleTree shown => "Cannot convert " ++ shown ++ " to SymPy"
  | markerWithoutCall shown => markerRule shown

end BuildFault

inductive DerivativeFault
  | unknownNode (shown : String)
  | unknownMarker (symbol : String)
  | unknownBinary (symbol : String)
  | markerWithoutCall (shown : String)
  | negativeOrder (order : Int)
  deriving DecidableEq, Repr

namespace DerivativeFault

def message : DerivativeFault → String
  | unknownNode shown => "Cannot differentiate node " ++ shown
  | unknownMarker symbol => "Unknown postfix operator '" ++ symbol ++ "'"
  | unknownBinary symbol => "Unknown binary operator '" ++ symbol ++ "'"
  | markerWithoutCall shown => markerRule shown
  | negativeOrder order => "Derivative order must not be negative, got " ++ toString order

end DerivativeFault

inductive SimplificationFault
  | unknownOperator (symbol : String)
  | emptyChild (slot kind : String)
  | unsettled (sweeps : Nat)
  deriving DecidableEq, Repr

namespace SimplificationFault

def message : SimplificationFault → String
  | unknownOperator symbol => "Cannot fold operator '" ++ symbol ++ "'"
  | emptyChild slot kind => "Empty '" ++ slot ++ "' subtree in " ++ kind
  | unsettled sweeps => "Optimizer did not settle after " ++ toString sweeps ++ " sweeps"

end SimplificationFault

inductive EvaluationFault
  | unbound (name : String)
  | undefinedOperation (lhs symbol rhs : String)
  | unknownFunction (name : String)
  | undefinedCall (name arg : String)
  | unresolvedDerivative
  | unknownNode (shown : String)
  deriving DecidableEq, Repr

namespace EvaluationFault

def message : EvaluationFault → String
  | unbound name => "Missing value for identifier '" ++ name ++ "'"
  | undefinedOperation lhs symbol rhs => lhs ++ " " ++ symbol ++ " " ++ rhs ++ " is undefined"
  | unknownFunction name => "Unknown function '" ++ name ++ "'"
  | undefinedCall name arg => name ++ "(" ++ arg ++ ") is undefined"
  | unresolvedDerivative => "Cannot evaluate the derivative of an unknown function"
  | unknownNode shown => "Cannot evaluate " ++ shown

end EvaluationFault

inductive RequestFault
  | orderTooLow (order : Int)
  | tooDeep (expression : String)
  deriving DecidableEq, Repr

namespace RequestFault

def message : RequestFault → String
  | orderTooLow order => "Derivative order must be at least 1, got " ++ toString order
  | tooDeep expression => "Expression '" ++ expression ++ "' grew too deep to process"

end RequestFault

inductive Fault
  | located (stage : Stage) (site : Site) (complaint : Complaint)
  | build (cause : BuildFault)
  | differentiation (cause : DerivativeFault)
  | simplification (cause : SimplificationFault)
  | evaluation (cause : EvaluationFault)
  | request (cause : RequestFault)
  /-- A binary operator that is to be written but has no priority. -/
  | noPriority (symbol : String)
  /-- A missing subtree that is to be written. -/
  | nothingToWrite
  /-- A list of lexemes without an end marker. -/
  | unterminatedLexemes
  /-- A number lexeme that is no numeral. -/
  | notANumeral (text : String)
  /-- A whole number beyond every finite number. -/
  | numberTooLarge
  /-- A random choice among no alternatives. -/
  | nothingToChoose
  /-- No acceptable random expression among this many. -/
  | nothingAcceptable (draws : Nat)
  deriving DecidableEq, Repr

namespace Fault

def message : Fault → String
  | located _ site complaint => site.report complaint.message
  | build cause => cause.message
  | differentiation cause => cause.message
  | simplification cause => cause.message
  | evaluation cause => cause.message
  | request cause => cause.message
  | noPriority symbol => quoted symbol
  | nothingToWrite => "Cannot render None"
  | unterminatedLexemes => "Lexeme stream must end with an EOF lexeme"
  | notANumeral text => "could not convert string to float: " ++ quoted text
  | numberTooLarge => "int too large to convert to float"
  | nothingToChoose => "Cannot choose from an empty sequence"
  | nothingAcceptable draws => "No acceptable expression among " ++ toString draws ++ " draws"

/-- Faults that concern what the user wrote or asked for. -/
def isExpressionFault : Fault → Bool
  | located .. | build _ | differentiation _ | simplification _ | evaluation _ | request _ => true
  | _ => false

end Fault

end Fluxion
