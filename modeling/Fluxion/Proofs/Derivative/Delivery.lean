import Fluxion.Proofs.Derivative.Series
import Fluxion.Service.Event

/-!
The series of derivatives as it is delivered: as a report, as a stream of events, and as a list
of trees. All three walk the same derivatives. The walk for a smaller order is the beginning of
the walk for a larger one, whether that comes to its end or breaks off, be it at a tree that is
too deep. Main statement: the entries of a report show the trees, do not depend on the order,
and are the events in front of the last; where the report fails, the events are the entries of
a smaller order and the fault.
-/

namespace Fluxion

open Outcome Service

variable {α : Type} [Scalar α]

namespace DerivativeSeries

variable {text v : String} {tooDeep : Expr α → Bool} {current tree : Expr α} {done left : Nat}
  {shown : DerivativeEntry} {fault : Fault}

theorem entry_shows {order : Nat}
    (step : entry text current order v tooDeep = .ok (shown, tree)) :
    current.derivative v = .ok tree ∧ shown.Shows order tree := by
  obtain ⟨-, raw, steps, done, -, optimized, -, shows_, -⟩ := entry_eq_ok.1 step
  refine ⟨?_, shows_⟩
  rw [Expr.derivative, Expr.rawDerivative, done]
  exact optimized

/-- A limit on depth takes entries away but does not change them. -/
theorem entry_of_limited {order : Nat}
    (step : entry text current order v tooDeep = .ok (shown, tree)) :
    entry text current order v = .ok (shown, tree) := by
  obtain ⟨-, raw, steps, done, -, optimized, -, shows_⟩ := entry_eq_ok.1 step
  exact entry_eq_ok.2 ⟨rfl, raw, steps, done, rfl, optimized, rfl, shows_⟩

/-- What is still to come of a series, and the fault that it breaks off with if it does. -/
def toCome (text : String) (current : Expr α) (done left : Nat) (v : String)
    (tooDeep : Expr α → Bool) : List DerivativeEntry × Option Fault :=
  collect (left + 1) (running text current done left v) tooDeep

theorem to_come_zero : toCome text current done 0 v tooDeep = ([], none) := rfl

theorem to_come_of_fault (failed : entry text current (done + 1) v tooDeep = .error fault) :
    toCome text current done (left + 1) v tooDeep = ([], some fault) := by
  rw [toCome, collect]
  simp only [next, advance, failed]

theorem to_come_of_entry (step : entry text current (done + 1) v tooDeep = .ok (shown, tree)) :
    toCome text current done (left + 1) v tooDeep =
      (shown :: (toCome text tree (done + 1) left v tooDeep).1,
        (toCome text tree (done + 1) left v tooDeep).2) := by
  rw [toCome, collect]
  simp only [next, advance, step]
  rfl

theorem to_come_length (text : String) (current : Expr α) (done left : Nat) (v : String)
    (tooDeep : Expr α → Bool) :
    (toCome text current done left v tooDeep).2 = none ∧
        (toCome text current done left v tooDeep).1.length = left ∨
      (∃ fault, (toCome text current done left v tooDeep).2 = some fault) ∧
        (toCome text current done left v tooDeep).1.length < left := by
  induction left generalizing current done with
  | zero => exact .inl ⟨rfl, rfl⟩
  | succ left induction =>
      cases step : entry text current (done + 1) v tooDeep with
      | error fault =>
          rw [to_come_of_fault step]
          exact .inr ⟨⟨fault, rfl⟩, Nat.succ_pos left⟩
      | ok result =>
          rw [to_come_of_entry step]
          rcases induction result.2 (done + 1) with ⟨none, length⟩ | ⟨failed, length⟩
          · exact .inl ⟨none, congrArg (· + 1) length⟩
          · exact .inr ⟨failed, Nat.succ_lt_succ length⟩

/-- The walk for fewer orders is the beginning of the walk for more. -/
theorem to_come_smaller {smaller : Nat} (within : smaller ≤ left) :
    toCome text current done smaller v tooDeep =
      if smaller ≤ (toCome text current done left v tooDeep).1.length then
        ((toCome text current done left v tooDeep).1.take smaller, none)
      else toCome text current done left v tooDeep := by
  induction left generalizing current done smaller with
  | zero =>
      rw [Nat.le_zero.1 within]
      rfl
  | succ left induction =>
      cases smaller with
      | zero => rw [to_come_zero, if_pos (Nat.zero_le _), List.take_zero]
      | succ smaller =>
          cases step : entry text current (done + 1) v tooDeep with
          | error fault =>
              rw [to_come_of_fault step, to_come_of_fault step]
              exact (if_neg (Nat.not_succ_le_zero smaller)).symm
          | ok result =>
              rw [to_come_of_entry step, to_come_of_entry step,
                induction (Nat.le_of_succ_le_succ within)]
              simp only [List.length_cons, Nat.add_le_add_iff_right]
              split <;> rfl

/-- As far as the walk gets, it shows the derivatives of the tree. -/
theorem to_come_trees (text : String) (current : Expr α) (done left : Nat) (v : String)
    (tooDeep : Expr α → Bool) :
    ∃ trees,
      Expr.derivativesFrom v (toCome text current done left v tooDeep).1.length current =
        .ok trees ∧
      trees[0]? = some current ∧
      trees.length = (toCome text current done left v tooDeep).1.length + 1 ∧
      ∀ k shown, (toCome text current done left v tooDeep).1[k]? = some shown →
        ∃ tree, trees[k + 1]? = some tree ∧ shown.Shows (done + k + 1) tree := by
  induction left generalizing current done with
  | zero => exact ⟨[current], rfl, rfl, rfl, by simp [to_come_zero]⟩
  | succ left induction =>
      cases step : entry text current (done + 1) v tooDeep with
      | error fault =>
          rw [to_come_of_fault step]
          exact ⟨[current], rfl, rfl, rfl, by simp⟩
      | ok result =>
          obtain ⟨first, tree⟩ := result
          obtain ⟨derives, shows_⟩ := entry_shows step
          obtain ⟨trees, series, starts, length, show_⟩ := induction tree (done + 1)
          rw [to_come_of_entry step]
          refine ⟨current :: trees, ?_, rfl, congrArg (· + 1) length, ?_⟩
          · rw [List.length_cons, Expr.derivativesFrom, derives, ok_bind, series, ok_bind]
            rfl
          · intro k shown found
            cases k with
            | zero =>
                cases found
                exact ⟨tree, starts, shows_⟩
            | succ k =>
                obtain ⟨later, isLater, shown⟩ := show_ k shown found
                exact ⟨later, isLater, Nat.add_right_comm done 1 k ▸ shown⟩

variable {smaller order : Int}

theorem all_of_tree {source : Expr α} (positive : 1 ≤ order) (parsed : parse text = .ok source)
    (v : String) (tooDeep : Expr α → Bool) :
    all text order v tooDeep = toCome text source 0 order.toNat v tooDeep := by
  rw [all, toCome, collect, collect]
  simp only [next, if_neg (Int.not_lt.2 positive), parsed]

theorem all_of_fault (positive : 1 ≤ order)
    (refused : (parse text : Except Fault (Expr α)) = .error fault) (v : String)
    (tooDeep : Expr α → Bool) : all text order v tooDeep = ([], some fault) := by
  rw [all, collect]
  simp only [next, if_neg (Int.not_lt.2 positive), refused]

theorem all_length (text : String) (positive : 1 ≤ order) (v : String)
    (tooDeep : Expr α → Bool) :
    (all text order v tooDeep).2 = none ∧ (all text order v tooDeep).1.length = order.toNat ∨
      (∃ fault, (all text order v tooDeep).2 = some fault) ∧
        (all text order v tooDeep).1.length < order.toNat := by
  cases parsed : (parse text : Except Fault (Expr α)) with
  | error fault =>
      rw [all_of_fault positive parsed]
      exact .inr ⟨⟨fault, rfl⟩, by rw [List.length_nil]; omega⟩
  | ok source =>
      rw [all_of_tree positive parsed]
      exact to_come_length text source 0 order.toNat v tooDeep

theorem all_smaller (text : String) (positive : 1 ≤ smaller) (within : smaller ≤ order)
    (v : String) (tooDeep : Expr α → Bool) : all text smaller v tooDeep =
      if smaller.toNat ≤ (all text order v tooDeep).1.length then
        ((all text order v tooDeep).1.take smaller.toNat, none)
      else all text order v tooDeep := by
  have positive' : 1 ≤ order := Int.le_trans positive within
  cases parsed : (parse text : Except Fault (Expr α)) with
  | error fault =>
      rw [all_of_fault positive parsed, all_of_fault positive' parsed]
      exact (if_neg (by rw [List.length_nil]; omega)).symm
  | ok source =>
      rw [all_of_tree positive parsed, all_of_tree positive' parsed]
      exact to_come_smaller (Int.toNat_le_toNat within)

end DerivativeSeries

open DerivativeSeries

/-- A report, and what is delivered in other ways with it. -/
structure Delivered (text : String) (order : Int) (v : String) (tooDeep : Expr Float → Bool)
    (report : DerivativeReport) : Prop where
  about : report.expression = text ∧ report.variableName = v
  length : report.derivatives.length = order.toNat
  trees : ∃ (source : Expr Float) (trees : List (Expr Float)), parse text = .ok source ∧
    source.derivatives order v = .ok trees ∧ trees.length = order.toNat + 1 ∧
    ∀ k shown, report.derivatives[k]? = some shown →
      ∃ tree, trees[k + 1]? = some tree ∧ shown.Shows (k + 1) tree
  smaller : ∀ smaller : Int, 1 ≤ smaller → smaller ≤ order →
    reportDerivatives Float text smaller v tooDeep =
      .ok ⟨text, v, report.derivatives.take smaller.toNat⟩
  events : derivativeEvents Float text order v tooDeep =
    report.derivatives.map Event.derivative ++ [.complete order]

/-- A series that breaks off behind some entries. -/
structure BrokenOff (text : String) (order : Int) (v : String) (tooDeep : Expr Float → Bool)
    (fault : Fault) (entries : List DerivativeEntry) : Prop where
  unfinished : entries.length < order.toNat
  finished : 1 ≤ entries.length →
    reportDerivatives Float text entries.length v tooDeep = .ok ⟨text, v, entries⟩
  further : ∀ larger : Int, entries.length < larger → larger ≤ order →
    reportDerivatives Float text larger v tooDeep = .error fault
  events : derivativeEvents Float text order v tooDeep =
    entries.map Event.derivative ++ [.failed fault.message]
  incomplete : ∀ order' : Int,
    Event.complete order' ∉ derivativeEvents Float text order v tooDeep

section

variable {text v : String} {order : Int} {fault : Fault} {entries : List DerivativeEntry}

theorem report_of_all {tooDeep : Expr α → Bool}
    (walked : all text order v tooDeep = (entries, none)) :
    reportDerivatives α text order v tooDeep = .ok ⟨text, v, entries⟩ := by
  rw [reportDerivatives, walked]

theorem report_of_all_fault {tooDeep : Expr α → Bool}
    (walked : all text order v tooDeep = (entries, some fault)) :
    reportDerivatives α text order v tooDeep = .error fault := by
  rw [reportDerivatives, walked]

variable {tooDeep : Expr Float → Bool}

theorem length_of_all (positive : 1 ≤ order)
    (walked : all text order v tooDeep = (entries, none)) : entries.length = order.toNat := by
  rcases all_length text positive v tooDeep with ⟨-, length⟩ | ⟨⟨fault, failed⟩, -⟩
  · rwa [walked] at length
  · rw [walked] at failed
    cases failed

/-- A walk that comes to its end has shown the list of derivatives. -/
theorem trees_of_all (positive : 1 ≤ order)
    (walked : all text order v tooDeep = (entries, none)) :
    ∃ (source : Expr Float) (trees : List (Expr Float)), parse text = .ok source ∧
      source.derivatives order v = .ok trees ∧ trees.length = order.toNat + 1 ∧
      ∀ k shown, entries[k]? = some shown →
        ∃ tree, trees[k + 1]? = some tree ∧ shown.Shows (k + 1) tree := by
  have length := length_of_all positive walked
  rcases parse_answers text with ⟨source, parsed, plain, -⟩ | ⟨stage, site, complaint, -, refused⟩
  · obtain ⟨trees, series, -, many, show_⟩ := to_come_trees text source 0 order.toNat v tooDeep
    rw [← all_of_tree positive parsed, walked] at series many show_
    refine ⟨source, trees, parsed, ?_, length ▸ many, fun k shown found => ?_⟩
    · rw [Expr.derivatives, if_neg (by omega), Expr.whole_of_built plain.1, ok_bind, ← length]
      exact series
    · obtain ⟨tree, isTree, shows_⟩ := show_ k shown found
      exact ⟨tree, isTree, Nat.zero_add k ▸ shows_⟩
  · rw [all_of_fault positive refused] at walked
    cases walked

theorem delivered_of_all (positive : 1 ≤ order)
    (walked : all text order v tooDeep = (entries, none)) :
    Delivered text order v tooDeep ⟨text, v, entries⟩ where
  about := ⟨rfl, rfl⟩
  length := length_of_all positive walked
  trees := trees_of_all positive walked
  smaller smaller positive within := by
    apply report_of_all
    rw [all_smaller text positive within, walked]
    exact if_pos (length_of_all (by omega) walked ▸ Int.toNat_le_toNat within)
  events := by rw [derivativeEvents, walked]

theorem broken_off_of_all (positive : 1 ≤ order)
    (walked : all text order v tooDeep = (entries, some fault))
    (isExpressionFault : fault.isExpressionFault = true) :
    BrokenOff text order v tooDeep fault entries := by
  have events : derivativeEvents Float text order v tooDeep =
      entries.map Event.derivative ++ [.failed fault.message] := by
    simp only [derivativeEvents, walked, Event.detail, isExpressionFault, if_true]
  have unfinished : entries.length < order.toNat := by
    rcases all_length text positive v tooDeep with ⟨failed, -⟩ | ⟨-, shorter⟩
    · rw [walked] at failed
      cases failed
    · rwa [walked] at shorter
  constructor
  case unfinished => exact unfinished
  case finished =>
    intro some
    apply report_of_all
    rw [all_smaller text (by omega) (show (entries.length : Int) ≤ order by omega), walked,
      Int.toNat_natCast, if_pos (Nat.le_refl _), List.take_length]
  case further =>
    intro larger further within
    have beyond : ¬larger.toNat ≤ entries.length := by omega
    apply report_of_all_fault
    rw [all_smaller text (by omega) within, walked]
    exact if_neg beyond
  case events => exact events
  case incomplete =>
    rw [events]
    simp

end

/-- Report, stream and list of trees deliver the same derivatives of a text, and the same
beginning of them where an order fails, be it for want of depth. -/
theorem delivery_of_text (text : String) (order : Int) (positive : 1 ≤ order) (v : String)
    (tooDeep : Expr Float → Bool) :
    (∀ report, reportDerivatives Float text order v tooDeep = .ok report →
      Delivered text order v tooDeep report) ∧
    ∀ fault, reportDerivatives Float text order v tooDeep = .error fault →
      fault.isExpressionFault = true →
        ∃ entries, BrokenOff text order v tooDeep fault entries := by
  obtain ⟨entries, ending, walked⟩ : ∃ entries ending,
      all text order v tooDeep = (entries, ending) := ⟨_, _, rfl⟩
  cases ending with
  | none =>
      rw [report_of_all walked]
      refine ⟨?_, nofun⟩
      rintro report ⟨⟩
      exact delivered_of_all positive walked
  | some fault =>
      rw [report_of_all_fault walked]
      refine ⟨nofun, ?_⟩
      rintro fault ⟨⟩ isExpressionFault
      exact ⟨entries, broken_off_of_all positive walked isExpressionFault⟩

/-- The trees that a recursion of so many levels does not get to the bottom of. -/
def Expr.deeperThan {β : Type} (levels : Nat) (tree : Expr β) : Bool :=
  decide (levels < tree.depth)

/-- Seven levels are enough for two derivatives, which are delivered, but not for a third one,
in front of which they are delivered as well. -/
theorem delivery_of_sine : (1 : Int) ≤ 2 ∧ (1 : Int) ≤ 3 ∧
    ∃ report, reportDerivatives Float "sin(x)*x" 2 "x" (Expr.deeperThan 7) = .ok report ∧
      Delivered "sin(x)*x" 2 "x" (Expr.deeperThan 7) report ∧
      reportDerivatives Float "sin(x)*x" 3 "x" (Expr.deeperThan 7) =
        .error (.request (.tooDeep "sin(x)*x")) ∧
      BrokenOff "sin(x)*x" 3 "x" (Expr.deeperThan 7) (.request (.tooDeep "sin(x)*x"))
        report.derivatives := by
  have two : (1 : Int) ≤ 2 := by decide
  have three : (1 : Int) ≤ 3 := by decide
  have events : (derivativeEvents Float "sin(x)*x" 3 "x" (Expr.deeperThan 7)).length = 3 := by
    decide +kernel
  have fails : reportDerivatives Float "sin(x)*x" 3 "x" (Expr.deeperThan 7) =
      .error (.request (.tooDeep "sin(x)*x")) := by
    decide +kernel
  obtain ⟨entries, broken⟩ :=
    (delivery_of_text "sin(x)*x" 3 three "x" (Expr.deeperThan 7)).2 _ fails rfl
  have length : entries.length = 2 := by
    rw [broken.events] at events
    simpa using events
  have reported := broken.finished (by omega)
  rw [length] at reported
  exact ⟨two, three, _, reported,
    (delivery_of_text "sin(x)*x" 2 two "x" (Expr.deeperThan 7)).1 _ reported, fails, broken⟩

end Fluxion
