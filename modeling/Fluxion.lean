import Fluxion.Algebra.Canonical
import Fluxion.Algebra.OfExpr
import Fluxion.Algebra.Ordered
import Fluxion.Algebra.Parting
import Fluxion.Algebra.Term
import Fluxion.Algebra.ToExpr
import Fluxion.Decimal.Dyadic
import Fluxion.Decimal.Layout
import Fluxion.Decimal.Numeral
import Fluxion.Decimal.Shortest
import Fluxion.Derivative.Rules
import Fluxion.Derivative.Step
import Fluxion.Expr.Basic
import Fluxion.Expr.Build
import Fluxion.Expr.Depth
import Fluxion.Expr.Description
import Fluxion.Expr.Evaluation
import Fluxion.Expr.Number
import Fluxion.Expr.Substitution
import Fluxion.Expr.Taylor
import Fluxion.Fault
import Fluxion.Grammar.Parse
import Fluxion.Grammar.Passage
import Fluxion.Json.Reader
import Fluxion.Json.Value
import Fluxion.Json.Writer
import Fluxion.Lexeme.Basic
import Fluxion.Lexeme.Scanner
import Fluxion.Notation.Infix
import Fluxion.Notation.Latex
import Fluxion.Notation.Priority
import Fluxion.Random.Sample
import Fluxion.Random.Twister
import Fluxion.Report
import Fluxion.Scalar.Basic
import Fluxion.Scalar.Double
import Fluxion.Service.Event
import Fluxion.Service.Field
import Fluxion.Service.Request
import Fluxion.Service.Route
import Fluxion.Service.Symbols
import Fluxion.Simplify.Fixpoint
import Fluxion.Simplify.Fold
import Fluxion.Simplify.Rules
import Fluxion.Text.Blank
import Fluxion.Text.Digit
import Fluxion.Text.Hex
import Fluxion.Text.Printable
import Fluxion.Text.Quoted
import Fluxion.Text.Ranges
import Fluxion.Proofs.Algebra.Elementary
import Fluxion.Proofs.Expr.Binding
import Fluxion.Proofs.Expr.Built
import Fluxion.Proofs.Expr.Height
import Fluxion.Proofs.Expr.Related
import Fluxion.Proofs.Expr.Walk
import Fluxion.Proofs.Simplify.Rewriting
import Fluxion.Proofs.Simplify.Settling
import Fluxion.Proofs.Decimal.Arithmetic
import Fluxion.Proofs.Decimal.Binary
import Fluxion.Proofs.Decimal.Digits
import Fluxion.Proofs.Decimal.Finite
import Fluxion.Proofs.Decimal.Interchange
import Fluxion.Proofs.Decimal.Whole
import Fluxion.Proofs.Derivative.Constant
import Fluxion.Proofs.Derivative.Correctness
import Fluxion.Proofs.Derivative.Degree
import Fluxion.Proofs.Derivative.Delivery
import Fluxion.Proofs.Derivative.Depth
import Fluxion.Proofs.Derivative.Markers
import Fluxion.Proofs.Derivative.Renaming
import Fluxion.Proofs.Derivative.Reported
import Fluxion.Proofs.Derivative.Series
import Fluxion.Proofs.Derivative.Trace
import Fluxion.Proofs.Grammar.Acceptance
import Fluxion.Proofs.Grammar.Complaints
import Fluxion.Proofs.Grammar.Reuse
import Fluxion.Proofs.Lexeme.Scans
import Fluxion.Proofs.Lexeme.Stepping
import Fluxion.Proofs.Lexeme.Tokens
import Fluxion.Proofs.Notation.Phrased
import Fluxion.Proofs.Notation.Reprinted
import Fluxion.Proofs.Notation.RoundTrip
import Fluxion.Proofs.Notation.Unambiguous
import Fluxion.Proofs.Scalar.Identities
import Fluxion.Proofs.Simplify.Agreement
import Fluxion.Proofs.Simplify.Normal
import Fluxion.Proofs.Simplify.Preservation
import Fluxion.Proofs.Simplify.Related
import Fluxion.Proofs.Simplify.Resources
import Fluxion.Proofs.Simplify.Undefined
import Fluxion.Proofs.Polynomial.Taylor
