import Fluxion.Proofs.Derivative.Preserved
import Fluxion.Proofs.Grammar.Answers
import Fluxion.Report
import Mathlib

/-!
The series of derivatives of a text. Every tree of the series is again one that can be
differentiated, optimized and written. So, unless it is too deep to be walked, an order fails
only where sweeps run out, which takes a tree as deep as the limit on sweeps. Main statement: a
text has a plain tree or is refused at a place, and the derivatives of such a tree are numbered
from one up to the order, if trees of any depth can be walked.
-/

namespace Fluxion

open Outcome Simplify

variable {α : Type} [Scalar α]

/-- What every tree of a series keeps of the tree that the series is of: it is built, its
chains of markers end in calls of functions without a rule, and its variables are among
those of that tree. -/
structure Derivable (source current : Expr α) : Prop where
  built : current.Built
  marks : current.Marks Ruleless
  names {name : String} : current.isConstant name = false → source.isConstant name = false

variable {text v : String} {source current : Expr α}

omit [Scalar α] in
theorem Expr.Plain.derivable (plain : source.Plain) : Derivable source source where
  built := plain.1
  marks := plain.2.mono fun _ none => none.elim
  names occurs := occurs

theorem Derivable.derivative (derivable : Derivable source current) {raw : Expr α}
    (derives : current.DerivesTo v raw) : Derivable source raw where
  built := derives.built derivable.built
  marks := derives.marks derivable.marks
  names {name} occurs := by
    apply derivable.names
    by_contra absent
    simp [derives.constant (by simpa using absent)] at occurs

theorem Derivable.optimized (derivable : Derivable source current) {tree : Expr α}
    (optimized : current.optimize = .ok tree) : Derivable source tree where
  built := (Expr.optimize_rewrites optimized).built derivable.built
  marks := (Expr.optimize_rewrites optimized).marks derivable.marks
  names {name} occurs := by
    apply derivable.names
    by_contra absent
    simp [(Expr.optimize_rewrites optimized).constant (by simpa using absent)] at occurs

structure DerivativeEntry.Shows (shown : DerivativeEntry) (order : Nat) (tree : Expr α) :
    Prop where
  order : shown.order = order
  derivative : tree.toInfix = .ok shown.derivative
  latex : tree.toLatex = .ok shown.latex

namespace DerivativeSeries

section

variable {tooDeep : Expr α → Bool} {raw tree : Expr α} {order : Nat} {steps : Array Step}
  {shown : DerivativeEntry} {fault : Fault}

/-- All that an order does: three trees are walked, and the entry shows the last. -/
theorem entry_eq_ok :
    entry text current order v tooDeep = .ok (shown, tree) ↔ tooDeep current = false ∧
      ∃ raw steps, (current.differentiate v).run #[] = .ok raw steps ∧ tooDeep raw = false ∧
        raw.optimize = .ok tree ∧ tooDeep tree = false ∧ shown.Shows order tree ∧
        shown.steps = steps.toList := by
  unfold entry
  constructor
  · intro step
    simp only [bind_eq_ok, Expr.walkable_eq_ok] at step
    obtain ⟨_, ⟨within, rfl⟩, step⟩ := step
    cases done : (current.differentiate v).run #[] with
    | error fault steps =>
        rw [done] at step
        cases step
    | ok raw steps =>
        rw [done] at step
        simp only [bind_eq_ok, pure_eq_ok, Expr.walkable_eq_ok] at step
        obtain ⟨_, ⟨withinRaw, rfl⟩, tree', optimized, _, ⟨withinTree, rfl⟩, derivative, written,
          latex, typeset, same⟩ := step
        cases same
        exact ⟨within, raw, steps, rfl, withinRaw, optimized, withinTree,
          ⟨rfl, written, typeset⟩, rfl⟩
  · rintro ⟨within, raw, steps, done, withinRaw, optimized, withinTree, shows_, recorded⟩
    obtain ⟨order', derivative, latex, steps'⟩ := shown
    obtain ⟨rfl, written, typeset⟩ := shows_
    cases recorded
    rw [Expr.walkable_eq_ok.2 ⟨within, rfl⟩, ok_bind, done]
    simp only [Expr.walkable_eq_ok.2 ⟨withinRaw, rfl⟩, Expr.walkable_eq_ok.2 ⟨withinTree, rfl⟩,
      ok_bind, optimized, written, typeset]
    rfl

theorem entry_of_underived (within : tooDeep current = false)
    (failed : (current.differentiate v).run #[] = .error fault steps) :
    entry text current order v tooDeep = .error fault := by
  unfold entry
  rw [Expr.walkable_eq_ok.2 ⟨within, rfl⟩, ok_bind, failed]
  rfl

theorem entry_of_unoptimized (within : tooDeep current = false)
    (done : (current.differentiate v).run #[] = .ok raw steps) (withinRaw : tooDeep raw = false)
    (failed : raw.optimize = .error fault) :
    entry text current order v tooDeep = .error fault := by
  unfold entry
  rw [Expr.walkable_eq_ok.2 ⟨within, rfl⟩, ok_bind, done]
  simp only [Expr.walkable_eq_ok.2 ⟨withinRaw, rfl⟩, ok_bind, failed, error_bind]

end

/-- One differentiation gives the entry of its order, or sweeps run out. -/
theorem entry_of_derivable (derivable : Derivable source current) (text : String)
    (order : Nat) (v : String) :
    (∃ result raw tree, entry text current order v = .ok (result, tree) ∧ result.order = order ∧
      current.DerivesTo v raw ∧ raw.optimize = .ok tree) ∨
    entry text current order v = .error (.simplification (.unsettled sweepLimit)) ∧
      sweepLimit ≤ 4 * current.height := by
  rcases (Expr.differentiate_gives (v := v) derivable.built derivable.marks).1 #[] with
    ⟨raw, steps, done, derives⟩ | ⟨fault, steps, failed, rfl, deep⟩
  · rcases Expr.optimize_of_built (derives.built derivable.built) with
      ⟨tree, optimized⟩ | ⟨fault, failed, rfl, deep⟩
    · have built := ((derivable.derivative derives).optimized optimized).built
      obtain ⟨shown, written⟩ := Expr.infix_of_built built freePriority
      obtain ⟨latex, typeset⟩ := Expr.latex_of_built built freePriority
      exact .inl ⟨⟨order, shown, latex, steps.toList⟩, raw, tree,
        entry_eq_ok.2 ⟨rfl, raw, steps, done, rfl, optimized, rfl, ⟨rfl, written, typeset⟩, rfl⟩,
        rfl, derives, optimized⟩
    · have low := derives.height_le
      exact .inr ⟨entry_of_unoptimized rfl done rfl failed, by omega⟩
  · exact .inr ⟨entry_of_underived rfl failed, by omega⟩

/-- The trees of a series, each with its order. -/
inductive Reaches (v : String) (source : Expr α) : Nat → Expr α → Prop
  | source : Reaches v source 0 source
  | next {text : String} {order : Nat} {current tree : Expr α} {result : DerivativeEntry}
      (reaches : Reaches v source order current)
      (step : entry text current (order + 1) v = .ok (result, tree)) :
      Reaches v source (order + 1) tree

theorem Reaches.derivable {order : Nat} (reaches : Reaches v source order current)
    (plain : source.Plain) :
    Derivable source current ∧ current.height ≤ 4 ^ order * source.height := by
  induction reaches with
  | source => exact ⟨plain.derivable, by omega⟩
  | @next text order current tree result reaches step induction =>
      obtain ⟨derivable, low⟩ := induction
      rcases entry_of_derivable derivable text (order + 1) v with
        ⟨_, raw, _, done, -, derives, optimized⟩ | ⟨failed, -⟩
      · rw [done] at step
        cases step
        refine ⟨(derivable.derivative derives).optimized optimized, ?_⟩
        have lower := (Expr.optimize_rewrites optimized).height_le
        have deeper := derives.height_le
        calc tree.height ≤ 4 * current.height := by omega
          _ ≤ 4 * (4 ^ order * source.height) := Nat.mul_le_mul_left 4 low
          _ = 4 ^ (order + 1) * source.height := four_mul_pow_mul order source.height
      · rw [failed] at step
        cases step

theorem collect_running {done : Nat} (plain : source.Plain)
    (reaches : Reaches v source done current) (text : String) (left : Nat) :
    ∃ entries fault, collect (left + 1) (running text current done left v) = (entries, fault) ∧
      (fault = none ∧ entries.map (·.order) = List.range' (done + 1) left ∨
        fault = some (.simplification (.unsettled sweepLimit)) ∧
          sweepLimit ≤ 4 ^ (done + left) * source.height) := by
  induction left generalizing done current with
  | zero => exact ⟨[], none, rfl, .inl ⟨rfl, rfl⟩⟩
  | succ left induction =>
      obtain ⟨derivable, low⟩ := reaches.derivable plain
      rcases entry_of_derivable derivable text (done + 1) v with
        ⟨result, raw, tree, step, order, -⟩ | ⟨failed, deep⟩
      · obtain ⟨entries, fault, rest, ends⟩ := induction (reaches.next step)
        refine ⟨result :: entries, fault, ?_, ?_⟩
        · rw [collect]
          simp only [next, advance, step, rest]
        · rcases ends with ⟨none, numbered⟩ | ⟨unsettled, deep⟩
          · refine .inl ⟨none, ?_⟩
            rw [List.map_cons, order, numbered, List.range'_succ]
          · refine .inr ⟨unsettled, ?_⟩
            rwa [Nat.add_right_comm, Nat.add_assoc] at deep
      · refine ⟨[], _, ?_, .inr ⟨rfl, ?_⟩⟩
        · rw [collect]
          simp only [next, advance, failed]
        · calc sweepLimit ≤ 4 * (4 ^ done * source.height) := by omega
            _ = 4 ^ (done + 1) * source.height := four_mul_pow_mul done source.height
            _ ≤ 4 ^ (done + (left + 1)) * source.height :=
              Nat.mul_le_mul_right _ (Nat.pow_le_pow_right (by decide) (by omega))

end DerivativeSeries

open DerivativeSeries

/-- A text is refused at a place by the scanner or the parser, or it has a tree whose
derivatives are numbered from one up to any order, unless sweeps run out on one that is
deep enough; and each of these trees can be differentiated again. -/
theorem derivatives_of_text (text : String) :
    (∃ stage site complaint, (stage = .lexical ∨ stage = .grammatical) ∧
      (parse text : Except Fault (Expr Float)) = .error (.located stage site complaint)) ∨
    ∃ source : Expr Float, parse text = .ok source ∧ ∀ v : String,
      (∀ order : Int, 1 ≤ order →
        (∃ entries, reportDerivatives Float text order v = .ok ⟨text, v, entries⟩ ∧
          entries.map (·.order) = List.range' 1 order.toNat) ∨
        reportDerivatives Float text order v = .error (.simplification (.unsettled sweepLimit)) ∧
          sweepLimit ≤ 4 ^ order.toNat * depthLimit) ∧
      ∀ done current, Reaches v source done current → Derivable source current ∧
        ∀ raw, current.rawDerivative v = .ok raw → Derivable source raw := by
  rcases parse_answers text with ⟨source, parsed, plain, shallow⟩ | refused
  · refine .inr ⟨source, parsed, fun v =>
      ⟨fun order positive => ?_, fun done current reaches => ?_⟩⟩
    · obtain ⟨entries, fault, collected, ends⟩ :=
        collect_running (v := v) plain .source text order.toNat
      have all : DerivativeSeries.all (α := Float) text order v = (entries, fault) := by
        rw [← collected, DerivativeSeries.all, collect, collect]
        simp only [next, if_neg (Int.not_lt.2 positive), parsed]
      unfold reportDerivatives
      rw [all]
      rcases ends with ⟨rfl, numbered⟩ | ⟨rfl, deep⟩
      · exact .inl ⟨entries, rfl, numbered⟩
      · refine .inr ⟨rfl, Nat.le_trans deep ?_⟩
        rw [Nat.zero_add, ← Expr.depth_eq_height]
        exact Nat.mul_le_mul_left _ shallow
    · obtain ⟨derivable, -⟩ := reaches.derivable plain
      refine ⟨derivable, fun raw done => ?_⟩
      rcases Expr.raw_derivative_of_built (v := v) derivable.built derivable.marks with
        ⟨raw', done', derives⟩ | ⟨-, failed⟩
      · cases done'.symm.trans done
        exact derivable.derivative derives
      · rw [failed] at done
        cases done
  · exact .inl refused

theorem derivatives_of_text_of_call :
    ∃ entries, reportDerivatives Float "f(x)" 3 "x" = .ok ⟨"f(x)", "x", entries⟩ ∧
      entries.map (·.order) = [1, 2, 3] := by
  have accepted : (parse "f(x)" : Except Fault (Expr Float)).toOption.isSome = true := by
    decide +kernel
  rcases derivatives_of_text "f(x)" with ⟨stage, site, complaint, -, refused⟩ | ⟨source, -, series⟩
  · rw [refused] at accepted
    cases accepted
  · rcases (series "x").1 3 (by decide) with reported | ⟨-, deep⟩
    · exact reported
    · exact absurd deep (by decide)

end Fluxion
