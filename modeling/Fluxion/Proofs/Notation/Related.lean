import Fluxion.Notation.Infix
import Fluxion.Notation.Latex
import Fluxion.Proofs.Expr.Related

/-!
Writing related trees. Both notations ask of a number for its plain text and for its sign, and
of nothing else that two related numbers might answer differently. Main statement: trees with
related numbers have the same text in either notation.
-/

namespace Fluxion

variable {α : Type} [Scalar α]

structure AlikeTexts (numbers : α → α → Prop) : Prop where
  plain {a a' : α} : numbers a a' → Scalar.plainText a = Scalar.plainText a'
  negative {a a' : α} : numbers a a' → Scalar.isNegative a = Scalar.isNegative a'
  nonNegative {a a' : α} : numbers a a' → Scalar.isNonNegative a = Scalar.isNonNegative a'

section

variable {numbers : α → α → Prop} (alikeTexts : AlikeTexts numbers) {tree tree' : Expr α}

include alikeTexts

theorem written_number_eq {a a' : α} (close : numbers a a') (floor : Int) :
    writtenNumber a floor = writtenNumber a' floor := by
  rw [writtenNumber, writtenNumber, alikeTexts.plain close, alikeTexts.negative close]

namespace Expr.Related

omit alikeTexts [Scalar α] in
theorem is_named (related : Related numbers Eq tree tree') : tree.isNamed = tree'.isNamed := by
  cases related <;> rfl

theorem is_juxtaposed {lhs lhs' rhs rhs' : Expr α} (left : Related numbers Eq lhs lhs')
    (right : Related numbers Eq rhs rhs') : isJuxtaposed lhs rhs = isJuxtaposed lhs' rhs' := by
  cases left with
  | num close => rw [isJuxtaposed, isJuxtaposed, alikeTexts.nonNegative close, right.is_named]
  | _ => rfl

theorem infix_eq (related : Related numbers Eq tree tree') (floor : Int) :
    tree.infixAt floor = tree'.infixAt floor := by
  induction related generalizing floor with
  | missing => rfl
  | num close => rw [infixAt, infixAt, written_number_eq alikeTexts close]
  | var close => rw [close]
  | binary op left right first second => simp only [infixAt, first, second]
  | signed op inner induction | marked op inner induction | call name inner induction =>
      simp only [infixAt, induction]

theorem latex_eq (related : Related numbers Eq tree tree') (floor : Int) :
    tree.latexAt floor = tree'.latexAt floor := by
  induction related generalizing floor with
  | missing => rfl
  | num close => rw [latexAt, latexAt, written_number_eq alikeTexts close]
  | var close => rw [close]
  | binary op left right first second =>
      simp only [latexAt, first, second, is_juxtaposed alikeTexts left right]
  | signed op inner induction | marked op inner induction | call name inner induction =>
      simp only [latexAt, induction]

end Expr.Related

end

end Fluxion
