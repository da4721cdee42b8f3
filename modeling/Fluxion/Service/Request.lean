import Fluxion.Expr.Basic
import Fluxion.Service.Field

/-!
The requests that the service answers, and how they are read from a body.
-/

namespace Fluxion.Service

def highestOrder : Int := 10

structure DerivativeRequest where
  expression : String
  order : Int
  variableName : String
  deriving DecidableEq, Repr

structure ValueRequest where
  expression : String
  point : Float
  variableName : String

structure TaylorRequest where
  expression : String
  point : Float
  order : Int
  variableName : String

/-- Fields that are null are kept so; what is then missing is found on drawing. -/
structure SampleRequest where
  terms : Option Int
  depth : Option Int
  names : Option (List String)
  seed : Option Int
  deriving DecidableEq, Repr

def readVariable (body : Json) : Checked String :=
  defaulted body "variable" Expr.defaultVariable readText

def DerivativeRequest.read (body : Json) : Checked DerivativeRequest :=
  DerivativeRequest.mk <$> required body "expression" readText
    <*> defaulted body "order" 1 (readBounded 1 highestOrder)
    <*> readVariable body

def ValueRequest.read (body : Json) : Checked ValueRequest :=
  ValueRequest.mk <$> required body "expression" readText
    <*> required body "point" readFloat
    <*> readVariable body

def TaylorRequest.read (body : Json) : Checked TaylorRequest :=
  TaylorRequest.mk <$> required body "expression" readText
    <*> defaulted body "point" 0.0 readFloat
    <*> defaulted body "order" 3 (readBounded 0 highestOrder)
    <*> readVariable body

def SampleRequest.read (body : Json) : Checked SampleRequest :=
  SampleRequest.mk <$> defaulted body "num_terms" (some 3) (readNullable (readBounded 1 10))
    <*> defaulted body "max_depth" (some 2) (readNullable (readBounded 0 5))
    <*> defaulted body "variables" (some [Expr.defaultVariable]) (readNullable (readList readText))
    <*> defaulted body "seed" none (readNullable readInt)

end Fluxion.Service
