import Fluxion.Proofs.Grammar.Complaints

/-!
Beginnings of sentences, whatever the names and numbers in them are. The grammar asks of a
lexeme only its kind and, if it is an operator, its text, so lexemes that are alike in this
are exchanged freely in every derivation. Main statement: what leads somewhere begins a
sentence, even if its numbers are no numerals and its names are empty.
-/

namespace Fluxion

open Grammar Progress

namespace Lexeme

def role (lexeme : Lexeme) : LexemeKind × String :=
  (lexeme.kind, if lexeme.kind = .operator then lexeme.text else "")

theorem kind_of_role {lexeme other : Lexeme} (same : lexeme.role = other.role) :
    lexeme.kind = other.kind :=
  congrArg Prod.fst same

theorem text_of_role {lexeme other : Lexeme} (same : lexeme.role = other.role)
    (isOperator : other.kind = .operator) : lexeme.text = other.text := by
  have texts := congrArg Prod.snd same
  simpa only [role, kind_of_role same, isOperator, if_true] using texts

/-- The lexeme with a numeral for its number or a name for its identifier. -/
def respelled (lexeme : Lexeme) : Lexeme :=
  match lexeme.kind with
  | .number => { lexeme with text := "0" }
  | .identifier => { lexeme with text := "x" }
  | _ => lexeme

theorem respelled_role (lexeme : Lexeme) : lexeme.respelled.role = lexeme.role := by
  unfold respelled role
  split <;> simp [*]

theorem respelled_readable (lexeme : Lexeme) : Readable Float lexeme.respelled := by
  refine readable_double (fun number => ?_) fun name => ?_ <;>
    cases kind : lexeme.kind <;> simp_all [respelled, Text.isAsciiDigit]

end Lexeme

namespace Grammar

variable {limit : Nat} {p : Progress} {lexeme other : Lexeme} {lexemes others : List Lexeme}

theorem token_of_role {kind : LexemeKind} {token : Token kind} (same : lexeme.role = token.val.role) :
    lexeme.kind = kind :=
  (Lexeme.kind_of_role same).trans token.property

/-- A derivation of lexemes is one of any others that are alike. -/
theorem Phrase.exchanged {c : Category} (phrase : Phrase c)
    (alike : lexemes.map Lexeme.role = phrase.yield.map Lexeme.role) :
    ∃ phrase' : Phrase c, phrase'.yield = lexemes := by
  induction phrase generalizing lexemes with
  | chain first tail inFirst inTail =>
      rw [yield, List.map_append, List.map_eq_append_iff] at alike
      obtain ⟨front, behind, rfl, alikeFirst, alikeTail⟩ := alike
      obtain ⟨first', rfl⟩ := inFirst alikeFirst
      obtain ⟨tail', rfl⟩ := inTail alikeTail
      exact ⟨.chain first' tail', rfl⟩
  | done level =>
      rw [yield, List.map_nil, List.map_eq_nil_iff] at alike
      exact ⟨.done level, alike.symm⟩
  | next op operand tail inOperand inTail =>
      rw [yield, List.map_cons, List.map_append, List.map_eq_cons_iff] at alike
      obtain ⟨lexeme, rest, rfl, same, alike⟩ := alike
      obtain ⟨front, behind, rfl, alikeOperand, alikeTail⟩ := List.map_eq_append_iff.1 alike
      obtain ⟨operand', rfl⟩ := inOperand alikeOperand
      obtain ⟨tail', rfl⟩ := inTail alikeTail
      have spelled := (Lexeme.text_of_role same op.lexeme.property).trans op.spelled
      exact ⟨.next ⟨⟨lexeme, token_of_role same⟩, op.op, spelled, op.placed⟩ operand' tail', rfl⟩
  | bare inner inInner =>
      obtain ⟨inner', rfl⟩ := inInner alike
      exact ⟨.bare inner', rfl⟩
  | signed sign inner inInner =>
      rw [yield, List.map_cons, List.map_eq_cons_iff] at alike
      obtain ⟨lexeme, rest, rfl, same, alike⟩ := alike
      obtain ⟨inner', rfl⟩ := inInner alike
      have spelled := (Lexeme.text_of_role same sign.lexeme.property).trans sign.spelled
      exact ⟨.signed ⟨⟨lexeme, token_of_role same⟩, sign.op, spelled, sign.known⟩ inner', rfl⟩
  | group left inner right inInner =>
      rw [yield, List.map_cons, List.map_append, List.map_eq_cons_iff] at alike
      obtain ⟨paren, rest, rfl, same, alike⟩ := alike
      obtain ⟨front, behind, rfl, alikeInner, alikeEnd⟩ := List.map_eq_append_iff.1 alike
      obtain ⟨inner', rfl⟩ := inInner alikeInner
      obtain ⟨closing, rfl, sameEnd⟩ := List.map_eq_singleton_iff.1 alikeEnd
      exact ⟨.group ⟨paren, token_of_role same⟩ inner' ⟨closing, token_of_role sameEnd⟩, rfl⟩
  | call name left inner right inInner =>
      rw [yield, List.map_cons, List.map_cons, List.map_append, List.map_eq_cons_iff] at alike
      obtain ⟨named, rest, rfl, sameName, alike⟩ := alike
      obtain ⟨paren, rest, rfl, same, alike⟩ := List.map_eq_cons_iff.1 alike
      obtain ⟨front, behind, rfl, alikeInner, alikeEnd⟩ := List.map_eq_append_iff.1 alike
      obtain ⟨inner', rfl⟩ := inInner alikeInner
      obtain ⟨closing, rfl, sameEnd⟩ := List.map_eq_singleton_iff.1 alikeEnd
      exact ⟨.call ⟨named, token_of_role sameName⟩ ⟨paren, token_of_role same⟩ inner'
        ⟨closing, token_of_role sameEnd⟩, rfl⟩
  | identifier token =>
      obtain ⟨lexeme, rfl, same⟩ := List.map_eq_singleton_iff.1 alike
      exact ⟨.identifier ⟨lexeme, token_of_role same⟩, rfl⟩
  | number token =>
      obtain ⟨lexeme, rfl, same⟩ := List.map_eq_singleton_iff.1 alike
      exact ⟨.number ⟨lexeme, token_of_role same⟩, rfl⟩

theorem step_of_role (same : lexeme.role = other.role) : p.step limit lexeme = p.step limit other := by
  have kind := Lexeme.kind_of_role same
  have text := Lexeme.text_of_role same
  obtain ⟨expects, depth⟩ := p
  cases expects <;> cases otherKind : other.kind <;>
    simp_all [step, begun, continued, opened]

theorem follow_of_roles (alike : lexemes.map Lexeme.role = others.map Lexeme.role) :
    p.follow limit lexemes = p.follow limit others := by
  induction lexemes generalizing others p with
  | nil =>
      rw [List.map_nil, eq_comm, List.map_eq_nil_iff] at alike
      rw [alike]
  | cons lexeme rest induction =>
      rw [List.map_cons, eq_comm, List.map_eq_cons_iff] at alike
      obtain ⟨other, rest', rfl, same, alike⟩ := alike
      rw [follow_cons, follow_cons, step_of_role same.symm]
      exact congrArg _ (funext fun q => induction alike.symm)

theorem begins_of_roles (alike : lexemes.map Lexeme.role = others.map Lexeme.role)
    (begins : Begins others) : Begins lexemes := by
  obtain ⟨phrase, stop, isEnd, behind, whole⟩ := begins
  have extended : (lexemes ++ behind).map Lexeme.role =
      phrase.yield.map Lexeme.role ++ [stop.role] := by
    rw [List.map_append, alike, ← List.map_append, whole, List.map_append]
    rfl
  obtain ⟨sentence, last, split, alikeSentence, alikeEnd⟩ := List.map_eq_append_iff.1 extended
  obtain ⟨phrase', rfl⟩ := phrase.exchanged alikeSentence
  obtain ⟨stop', rfl, same⟩ := List.map_eq_singleton_iff.1 alikeEnd
  have isEnd' : stop'.isEnd = true := by
    rw [Lexeme.isEnd, Lexeme.kind_of_role same]
    exact isEnd
  exact ⟨phrase', stop', isEnd', behind, split⟩

/-- What leads somewhere begins a sentence. -/
theorem begins_of_way {q : Progress} (way : start.follow limit lexemes = some q) :
    Begins lexemes := by
  have alike : lexemes.map Lexeme.role = (lexemes.map Lexeme.respelled).map Lexeme.role := by
    simp [Lexeme.respelled_role]
  have readable : ∀ other ∈ lexemes.map Lexeme.respelled, Readable Float other := by
    intro other inside
    obtain ⟨lexeme, -, rfl⟩ := List.mem_map.1 inside
    exact lexeme.respelled_readable
  rw [follow_of_roles alike] at way
  exact begins_of_roles alike (begins_of_follow readable way)

end Grammar

end Fluxion
