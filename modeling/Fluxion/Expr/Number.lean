import Fluxion.Expr.Build
import Fluxion.Json.Value
import Fluxion.Scalar.Double

/-!
Numbers from values of other kinds. Whole and other numbers, truth values and
numerals in text are numbers; nothing else is.
-/

namespace Fluxion.Expr

def wholeDouble (n : Int) : Except Fault Float :=
  let size := Float.ofNat n.natAbs
  if size.isFinite then pure (if n < 0 then -size else size) else throw .numberTooLarge

def makeNumber (value : Json) : Except Fault (Expr Float) :=
  match value with
  | .int n => num <$> wholeDouble n
  | .real x => pure (num x)
  | .bool b => pure (num (if b then 1.0 else 0.0))
  | .str numeral =>
      match Scalar.read? numeral with
      | some x => pure (num x)
      | none => throw (.build (.invalidNumber value.describe))
  | _ => throw (.build (.invalidNumber value.describe))

end Fluxion.Expr
