import Fluxion.Proofs.Derivative.Delivery
import Fluxion.Proofs.Notation.Reprinted
import Fluxion.Proofs.Notation.Reread

/-!
Reported derivatives, read again. Without unknown functions there are no markers, and what the
rules of differentiation and of optimization put into a tree can be read like the tree itself, but
for the numbers that they compute. Main statement: the text of a first derivative of finite numbers
is accepted exactly if the numbers are whole, and then it has the values of the derivative.
-/

namespace Fluxion

open Decimal Outcome Simplify

theorem is_name_of_ruled {name : String} (ruled : ¬Ruleless name) : IsName name := by
  cases named : NamedFunction.ofName? name with
  | none => exact absurd named ruled
  | some f =>
      rw [NamedFunction.eq_name named]
      cases f <;> decide

section

variable {α : Type} [Scalar α] {epsilon : α} {v : String} {tree tree' derivative : Expr α}
  {callable : String → Prop}

theorem Simplify.Rewrites.legible (rewrites : Rewrites epsilon tree tree')
    (legible : tree.Legible callable) : tree'.Legible callable := by
  induction rewrites with
  | refl tree => exact legible
  | trans before after first second => exact second (first legible)
  | binary op left right first second =>
      exact ⟨legible.1, first legible.2.1, second legible.2.2⟩
  | signed op inner induction | call name inner induction =>
      exact ⟨legible.1, induction legible.2⟩
  | marked op inner induction => exact legible.elim
  | folded folds => trivial
  | binaryRule rule =>
      cases rule <;> simp_all [Expr.Legible, wholeNumber, BinaryOp.isKnown, SignOp.isKnown]
  | signRule rule => cases rule <;> simp_all [Expr.Legible, SignOp.isKnown]
  | callRule rule => cases rule <;> trivial

namespace Expr

theorem slope_legible {f : NamedFunction} (legible : tree.Legible (¬Ruleless ·)) :
    (f.slope tree).Legible (¬Ruleless ·) := by
  have sine : ¬Ruleless "sin" := by
    unfold Ruleless
    decide
  have cosine : ¬Ruleless "cos" := by
    unfold Ruleless
    decide
  cases f <;>
    simp [NamedFunction.slope, Legible, BinaryOp.isKnown, SignOp.isKnown, legible, sine, cosine]

/-- Functions with a rule leave no marker behind. -/
theorem DerivesTo.legible (derives : tree.DerivesTo v derivative)
    (legible : tree.Legible (¬Ruleless ·)) : derivative.Legible (¬Ruleless ·) := by
  have logarithm : ¬Ruleless "ln" := by
    unfold Ruleless
    decide
  induction derives with
  | number | itself | other | powerOfZero => trivial
  | known named argument inner => exact ⟨rfl, slope_legible legible.2, inner legible.2⟩
  | unknown nameless argument inner => exact absurd nameless legible.1
  | marker under argument inner => exact legible.elim
  | sign op argument inner => exact ⟨legible.1, inner legible.2⟩
  | sum first second left right | difference first second left right =>
      exact ⟨rfl, left legible.2.1, right legible.2.2⟩
  | product first second left right =>
      obtain ⟨-, legibleLeft, legibleRight⟩ := legible
      exact ⟨rfl, ⟨rfl, legibleLeft, right legibleRight⟩, rfl, left legibleLeft, legibleRight⟩
  | quotient first second left right =>
      obtain ⟨-, legibleLeft, legibleRight⟩ := legible
      exact ⟨rfl, ⟨rfl, ⟨rfl, left legibleLeft, legibleRight⟩, rfl, legibleLeft,
        right legibleRight⟩, rfl, legibleRight, trivial⟩
  | power constant optimized nonzero first left =>
      obtain ⟨-, legibleLeft, legibleRight⟩ := legible
      have exponent := (optimize_rewrites optimized).legible legibleRight
      exact ⟨rfl, ⟨rfl, exponent, rfl, legibleLeft, rfl, exponent, trivial⟩, left legibleLeft⟩
  | exponential varying constant second right =>
      have power := legible
      obtain ⟨-, legibleLeft, legibleRight⟩ := legible
      exact ⟨rfl, ⟨rfl, power, logarithm, legibleLeft⟩, right legibleRight⟩
  | generalPower varying varyingBase first second left right =>
      have power := legible
      obtain ⟨-, legibleLeft, legibleRight⟩ := legible
      exact ⟨rfl, power, rfl, ⟨rfl, ⟨rfl, left legibleLeft, legibleRight⟩, legibleLeft⟩, rfl,
        right legibleRight, logarithm, legibleLeft⟩

end Expr

end

def Expr.CallsRuled {α : Type} : Expr α → Prop
  | missing | num _ | var _ => True
  | binary _ lhs rhs => lhs.CallsRuled ∧ rhs.CallsRuled
  | signed _ operand | marked _ operand => operand.CallsRuled
  | call name arg => ¬Ruleless name ∧ arg.CallsRuled

theorem legible_of_textual {tree : Expr Float} (textual : tree.Textual)
    (ruled : tree.CallsRuled) : tree.Legible (¬Ruleless ·) := by
  induction tree with
  | missing | marked op operand inner => exact textual.elim
  | num value => trivial
  | var name => exact textual
  | binary op lhs rhs left right =>
      exact ⟨textual.1, left textual.2.1 ruled.1, right textual.2.2 ruled.2⟩
  | signed op operand inner => exact ⟨textual.1, inner textual.2 ruled⟩
  | call name arg inner => exact ⟨ruled.1, inner textual.2 ruled.2⟩

theorem derivative_legible {text v : String} {source tree : Expr Float}
    {tooDeep : Expr Float → Bool} {shown : DerivativeEntry} {order : Nat}
    (parsed : parse text = .ok source) (ruled : source.CallsRuled)
    (step : DerivativeSeries.entry text source order v tooDeep = .ok (shown, tree)) :
    tree.Legible (¬Ruleless ·) := by
  have step := DerivativeSeries.entry_of_limited step
  have legible := legible_of_textual (textual_of_parse parsed).1 ruled
  rcases parse_answers text with ⟨source', parsed', plain, -⟩ | ⟨_, _, _, -, refused⟩
  · cases parsed.symm.trans parsed'
    rcases DerivativeSeries.entry_of_derivable plain.derivable text order v with
      ⟨_, raw, _, step', -, derives, optimized⟩ | ⟨failed, -⟩
    · cases step.symm.trans step'
      exact (Expr.optimize_rewrites optimized).legible (derives.legible legible)
    · cases step.symm.trans failed
  · cases parsed.symm.trans refused

/-- The reported text of a first derivative is accepted exactly if all numbers of the derivative
are whole, and it has the values of the derivative then. -/
theorem reported_derivative_reread {text v : String} {source : Expr Float}
    {tooDeep : Expr Float → Bool} {report : DerivativeReport} (parsed : parse text = .ok source)
    (ruled : source.CallsRuled)
    (reported : reportDerivatives Float text 1 v tooDeep = .ok report) :
    ∃ shown tree, report.derivatives = [shown] ∧ source.derivative v = .ok tree ∧
      tree.toInfix = .ok shown.derivative ∧
      (tree.NumbersHold (Scalar.isFinite · = true) → tree.depth < depthLimit →
        Reread tree shown.derivative) := by
  have walked := DerivativeSeries.all_of_tree (Int.le_refl 1) parsed v tooDeep
  change DerivativeSeries.all text 1 v tooDeep =
    DerivativeSeries.toCome text source 0 (0 + 1) v tooDeep at walked
  cases step : DerivativeSeries.entry text source 1 v tooDeep with
  | error fault =>
      rw [DerivativeSeries.to_come_of_fault step] at walked
      cases reported.symm.trans (report_of_all_fault walked)
  | ok result =>
      obtain ⟨shown, tree⟩ := result
      rw [DerivativeSeries.to_come_of_entry step] at walked
      cases reported.symm.trans (report_of_all walked)
      obtain ⟨derives, shows_⟩ := DerivativeSeries.entry_shows step
      refine ⟨shown, tree, rfl, derives, shows_.derivative, fun finite shallow => ?_⟩
      have legible := (derivative_legible parsed ruled step).imp fun _ => is_name_of_ruled
      exact reread_of_legible legible finite shallow shows_.derivative

deriving instance DecidableEq for Expr

def scaledSine : Expr Float :=
  .binary .mul (.binary .sub (.num 2) (.num 5)) (.call "sin" (.var "x"))

theorem reported_derivative_reread_of_sine :
    parse "(2-5)*sin(x)" = .ok scaledSine ∧ scaledSine.CallsRuled ∧
      ∃ report shown tree, reportDerivatives Float "(2-5)*sin(x)" 1 "x" = .ok report ∧
        report.derivatives = [shown] ∧ scaledSine.derivative "x" = .ok tree ∧
        shown.derivative = "(-3)*cos(x)" ∧ Reread tree shown.derivative ∧ tree.AllWhole := by
  have parsed : parse "(2-5)*sin(x)" = .ok scaledSine := by decide +kernel
  have derives : scaledSine.derivative "x" =
      .ok (.binary .mul (.num (-3)) (.call "cos" (.var "x"))) := by decide +kernel
  have ruled : scaledSine.CallsRuled := by
    refine ⟨⟨trivial, trivial⟩, ?_, trivial⟩
    unfold Ruleless
    decide
  have reports : (reportDerivatives Float "(2-5)*sin(x)" 1 "x").toOption.isSome = true := by
    decide +kernel
  obtain ⟨report, reported⟩ := Option.isSome_iff_exists.1 reports
  rw [to_option_eq_some] at reported
  obtain ⟨shown, tree, single, derives', written, reread⟩ :=
    reported_derivative_reread parsed ruled reported
  cases derives.symm.trans derives'
  have finite : (-3 : Float).isFinite = true := by decide +kernel
  have whole : (Scalar.toInt? (-3 : Float)).isSome = true := by decide +kernel
  have text : Expr.toInfix (.binary .mul (.num (-3)) (.call "cos" (.var "x")) : Expr Float) =
      .ok "(-3)*cos(x)" := by decide +kernel
  exact ⟨parsed, ruled, report, shown, _, reported, single, derives,
    Except.ok.inj (written.symm.trans text), reread ⟨finite, trivial⟩ (by decide +kernel),
    whole, trivial⟩

/-- The derivative of the square root is written with two numbers that are not read again. -/
theorem derivative_of_root_refused :
    ∃ source tree : Expr Float, ∃ report,
      parse "x^(1/2)" = .ok source ∧ source.CallsRuled ∧
      reportDerivatives Float "x^(1/2)" 1 "x" = .ok report ∧ source.derivative "x" = .ok tree ∧
      tree.NumbersHold (Scalar.isFinite · = true) ∧ tree.depth < depthLimit ∧
      report.derivatives.map (·.derivative) = ["0.5*x^(-0.5)"] ∧
      (parse "0.5*x^(-0.5)" : Except Fault (Expr Float)) =
        .error (.located .lexical ⟨1, 1, "0.5", some "0.5*x^(-0.5)"⟩ (.notANumber "0.5")) := by
  have reports : (reportDerivatives Float "x^(1/2)" 1 "x").toOption.map
      (fun report => report.derivatives.map (·.derivative)) = some ["0.5*x^(-0.5)"] := by
    decide +kernel
  obtain ⟨report, reported, text⟩ := Option.map_eq_some_iff.1 reports
  have finite : (0.5 : Float).isFinite = true ∧ (-0.5 : Float).isFinite = true := by
    decide +kernel
  refine ⟨.binary .pow (.var "x") (.binary .div (.num 1) (.num 2)),
    .binary .mul (.num 0.5) (.binary .pow (.var "x") (.num (-0.5))), report, ?_,
    ⟨trivial, trivial, trivial⟩, to_option_eq_some.1 reported, ?_, ⟨finite.1, trivial, finite.2⟩,
    by decide +kernel, text, ?_⟩
  · decide +kernel
  · decide +kernel
  · decide +kernel

end Fluxion
