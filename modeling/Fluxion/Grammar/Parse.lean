import Fluxion.Grammar.Passage

/-!
The grammar of expressions and its parser.

    sum     = product { ("+" | "-") product }
    product = power { ("*" | "/") power }
    power   = term { "^" term }
    term    = [ "+" | "-" ] factor
    factor  = "(" sum ")" | identifier "(" sum ")" | identifier | number

Every chain is grouped from the left, that of "^" included, and a sign belongs to
the one factor behind it. The parser recurses on the number of parentheses that
may still be opened.
-/

namespace Fluxion

variable {α : Type} [Scalar α]

/-- The three kinds of operator chains, loosest first. -/
inductive Level
  | sum
  | product
  | power
  deriving DecidableEq, Repr

def BinaryOp.level? : BinaryOp → Option Level
  | .add | .sub => some .sum
  | .mul | .div => some .product
  | .pow => some .power
  | .other _ => none

namespace Lexeme

def chainOp? (lexeme : Lexeme) (level : Level) : Option BinaryOp :=
  let op := BinaryOp.ofSymbol lexeme.text
  if lexeme.kind = .operator ∧ op.level? = some level then some op else none

def sign? (lexeme : Lexeme) : Option SignOp :=
  let op := SignOp.ofSymbol lexeme.text
  if lexeme.kind = .operator ∧ op.isKnown then some op else none

end Lexeme

namespace Grammar

def built {β : Type} : Except Fault β → Parse β
  | .ok value => pure value
  | .error fault => throw fault

/-- Continues a chain behind its first operand, for at most `left` operators. -/
def chainFrom (level : Level) (operand : Parse (Expr α)) : Nat → Expr α → Parse (Expr α)
  | 0, root => pure root
  | left + 1, root => do
      match (← get).ahead.head?.bind (·.chainOp? level) with
      | none => pure root
      | some op =>
          modify Cursor.advance
          let rhs ← operand
          chainFrom level operand left (.binary op root rhs)

/-- Operands joined by the operators of a level. There are fewer operators than
lexemes ahead, so their number bounds the chain. -/
def chain (level : Level) (operand : Parse (Expr α)) : Parse (Expr α) := do
  let first ← operand
  chainFrom level operand (← get).ahead.length first

def expectClosing (passage : Passage) : Parse Unit := do
  match (← get).ahead with
  | [] => throw (passage.fault passage.stop .expectedClosing)
  | lexeme :: _ =>
      modify Cursor.advance
      if lexeme.kind = .closing then modify Cursor.closed
      else throw (passage.fault lexeme .expectedClosing)

/-- What stands in parentheses, behind the opening one. Without an inner parser
no further parenthesis may be opened. -/
def group (passage : Passage) (inner : Option (Parse (Expr α))) (paren : Lexeme) :
    Parse (Expr α) := do
  modify Cursor.opened
  match inner with
  | none => throw (passage.fault paren (.nestedTooDeep nestingLimit))
  | some inner =>
      let root ← inner
      expectClosing passage
      pure root

def number (text : String) : Parse (Expr α) :=
  match Scalar.read? text with
  | some value => pure (.num value)
  | none => throw (.notANumeral text)

def factor (passage : Passage) (inner : Option (Parse (Expr α))) : Parse (Expr α) := do
  match (← get).ahead with
  | [] => throw (passage.fault passage.stop .unexpectedEnd)
  | lexeme :: rest =>
      match lexeme.kind with
      | .opening =>
          modify Cursor.advance
          group passage inner lexeme
      | .identifier =>
          modify Cursor.advance
          match rest.head? with
          | none => built (Expr.makeVariable lexeme.text)
          | some paren =>
              if paren.kind = .opening then
                modify Cursor.advance
                let arg ← group passage inner paren
                built (Expr.makeCall lexeme.text arg)
              else built (Expr.makeVariable lexeme.text)
      | .number =>
          modify Cursor.advance
          number lexeme.text
      | _ => throw (passage.fault lexeme (.invalidSequence lexeme.text))

def term (passage : Passage) (inner : Option (Parse (Expr α))) : Parse (Expr α) := do
  match (← get).ahead.head?.bind (·.sign?) with
  | none => factor passage inner
  | some op =>
      modify Cursor.advance
      return .signed op (← factor passage inner)

def levels (term : Parse (Expr α)) : Parse (Expr α) :=
  chain .sum (chain .product (chain .power term))

/-- A sum inside which at most `room` further parentheses may be open at a time. -/
def expression (passage : Passage) : Nat → Parse (Expr α)
  | 0 => levels (term passage none)
  | room + 1 => levels (term passage (some (expression passage room)))

def whole (passage : Passage) : Parse (Expr α) := do
  let root ← expression passage (nestingLimit - (← get).nesting)
  match (← get).ahead with
  | lexeme :: _ =>
      modify Cursor.advance
      throw (passage.fault lexeme .extraLexeme)
  | [] =>
      if depthLimit < root.depth then
        throw (passage.fault passage.stop (.treeTooDeep depthLimit))
      else pure root

def run (passage : Passage) (cursor : Cursor) : Except Fault (Expr α) × Cursor :=
  match (whole passage).run cursor with
  | .ok root cursor => (.ok root, cursor)
  | .error fault cursor => (.error fault, cursor)

end Grammar

def parseLexemes (lexemes : List Lexeme) (lines : Option (List String)) :
    Except Fault (Expr α) := do
  let (passage, cursor) ← Passage.ofLexemes lexemes lines
  (Grammar.run passage cursor).1

def parse (text : String) : Except Fault (Expr α) := do
  parseLexemes (← lexemesOf text) (some (Scanner.linesOf text))

end Fluxion
