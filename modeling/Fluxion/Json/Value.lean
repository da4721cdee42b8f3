import Fluxion.Decimal.Layout
import Fluxion.Text.Quoted

/-!
JSON values. Whole numbers are exact and apart from other numbers, and the fields
of an object keep their order.
-/

namespace Fluxion

inductive Json
  | null
  | bool (value : Bool)
  | int (value : Int)
  | real (value : Float)
  | str (value : String)
  | list (items : List Json)
  | object (fields : List (String × Json))
  deriving Inhabited

namespace Json

/-- The value of a field; of several fields of one name the last one counts. -/
def field? (name : String) : Json → Option Json
  | object fields => (fields.reverse.find? (·.1 == name)).map (·.2)
  | _ => none

mutual

def describe : Json → String
  | null => "None"
  | bool true => "True"
  | bool false => "False"
  | int value => toString value
  | real value => Decimal.Layout.standard.float value
  | str value => Text.quoted value
  | list items => "[" ++ ", ".intercalate (describeItems items) ++ "]"
  | object fields => "\x7b" ++ ", ".intercalate (describeFields fields) ++ "\x7d"

def describeItems : List Json → List String
  | [] => []
  | item :: rest => item.describe :: describeItems rest

def describeFields : List (String × Json) → List String
  | [] => []
  | (name, value) :: rest => (Text.quoted name ++ ": " ++ value.describe) :: describeFields rest

end

end Json

end Fluxion
