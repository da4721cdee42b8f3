import Fluxion.Text.Blank

/-!
Typographic symbols that users write for plain ones. Each stands for a fixed plain
text, and none of these texts has such a symbol in it.
-/

namespace Fluxion.Service

def plainSymbol? (c : Char) : Option (List Char) :=
  if c.toNat = 0x03C0 then some ['p', 'i']
  else if c.toNat = 0x00D7 then some ['*']
  else if c.toNat = 0x00B7 then some ['*']
  else if c.toNat = 0x2212 then some ['-']
  else none

def normalize (text : String) : String :=
  String.ofList (text.toList.flatMap fun c => (plainSymbol? c).getD [c])

def isEmptyExpression (text : String) : Bool := Text.isAllBlank text.toList

end Fluxion.Service
