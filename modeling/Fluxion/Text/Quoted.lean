import Fluxion.Text.Hex
import Fluxion.Text.Printable

/-!
Quoted text as messages and descriptions show it. Single quotes enclose the text,
or double quotes when it holds a single quote and no double one. A backslash
stands before the enclosing quote and before a backslash, tab, line feed and
carriage return have their letters, and any other character that is not
printable is given by its code point.
-/

namespace Fluxion.Text

namespace Quoted

def mark (text : List Char) : Char :=
  if text.contains '\'' && !text.contains '"' then '"' else '\''

def escapeCode (point : Nat) : List Char :=
  if point < 0x100 then '\\' :: 'x' :: hexDigits 2 point
  else if point < 0x10000 then '\\' :: 'u' :: hexDigits 4 point
  else '\\' :: 'U' :: hexDigits 8 point

def escape (mark c : Char) : List Char :=
  if c = mark ∨ c = '\\' then ['\\', c]
  else if c = '\t' then ['\\', 't']
  else if c = '\n' then ['\\', 'n']
  else if c = '\r' then ['\\', 'r']
  else if isPrintable c then [c]
  else escapeCode c.toNat

def chars (text : List Char) : List Char :=
  mark text :: text.flatMap (escape (mark text)) ++ [mark text]

end Quoted

def quoted (text : String) : String := String.ofList (Quoted.chars text.toList)

end Fluxion.Text
