import Fluxion.Proofs.Expr.Height
import Fluxion.Proofs.Simplify.Sweep

/-!
How many sweeps a tree needs. A node may be rewritten long before its children
come to rest, and what it is rewritten to is a child, a number, a child under a
minus sign or twice a child. In every case it comes to rest at most one sweep after
the children. Main statement: a built tree settles within as many sweeps as it is
deep, so only a tree as deep as the limit can exhaust it.
-/

namespace Fluxion.Simplify

open Outcome Fluxion.Expr

variable {α : Type} [Scalar α] {epsilon : α}

def Settles (epsilon : α) : Nat → Expr α → Prop
  | 0, tree => sweep epsilon tree = .ok ⟨tree, false⟩
  | count + 1, tree => ∃ pass, sweep epsilon tree = .ok pass ∧ Settles epsilon count pass.tree

theorem Settles.succ {count : Nat} {tree : Expr α} (settles : Settles epsilon count tree) :
    Settles epsilon (count + 1) tree := by
  induction count generalizing tree with
  | zero => exact ⟨_, settles, settles⟩
  | succ count induction =>
      obtain ⟨pass, swept, rest⟩ := settles
      exact ⟨pass, swept, induction rest⟩

theorem Settles.mono {count more : Nat} {tree : Expr α} (settles : Settles epsilon count tree)
    (le : count ≤ more) : Settles epsilon more tree := by
  induction le with
  | refl => exact settles
  | step _ induction => exact induction.succ

theorem settles_num (count : Nat) (value : α) : Settles epsilon count (.num value) := by
  have still : Settles epsilon 0 (.num value) := rfl
  exact still.mono (Nat.zero_le _)

theorem settles_var (count : Nat) (name : String) : Settles epsilon count (.var name) := by
  have still : Settles epsilon 0 (.var name) := rfl
  exact still.mono (Nat.zero_le _)

/-- Sweeping goes on for as long as a tree takes to settle, and for one sweep more
that finds nothing to change. -/
theorem sweeps_of_settles {count left : Nat} (before : Nat) {tree : Expr α}
    (settles : Settles epsilon count tree) (enough : count < left) :
    ∃ result, sweepsFrom epsilon left before tree = .ok result ∧
      result.sweeps ≤ before + count + 1 := by
  induction left generalizing count before tree with
  | zero => omega
  | succ left induction =>
      cases count with
      | zero =>
          refine ⟨⟨tree, before + 1⟩, ?_, by simp⟩
          have still : sweep epsilon tree = .ok ⟨tree, false⟩ := settles
          simp [sweepsFrom, still]
      | succ count =>
          obtain ⟨pass, swept, rest⟩ := settles
          cases changed : pass.changed with
          | false =>
              refine ⟨⟨pass.tree, before + 1⟩, ?_, ?_⟩
              · simp [sweepsFrom, swept, changed]
              · show before + 1 ≤ before + (count + 1) + 1
                omega
          | true =>
              obtain ⟨result, done, bound⟩ : ∃ result,
                  sweepsFrom epsilon left (before + 1) pass.tree = .ok result ∧
                    result.sweeps ≤ before + 1 + count + 1 :=
                induction (before + 1) rest (by omega)
              refine ⟨result, ?_, by omega⟩
              simp [sweepsFrom, swept, changed, done]

theorem Settles.swept {count : Nat} {tree : Expr α} {pass : Pass α}
    (settles : Settles epsilon (count + 1) tree) (swept : sweep epsilon tree = .ok pass) :
    Settles epsilon count pass.tree := by
  obtain ⟨pass', swept', rest⟩ := settles
  rw [swept] at swept'
  cases swept'
  exact rest

theorem settles_plus {count : Nat} {operand : Expr α}
    (built : (Expr.signed .plus operand).Built) (settles : Settles epsilon (count + 1) operand) :
    Settles epsilon (count + 1) (.signed .plus operand) := by
  obtain ⟨pass, swept, rest⟩ := settles
  exact ⟨_, sweep_signed built swept, rest⟩

theorem settles_under_plus {count : Nat} {operand : Expr α}
    (built : (Expr.signed .plus operand).Built)
    (settles : Settles epsilon count (.signed .plus operand)) :
    0 < count ∧ Settles epsilon count operand := by
  obtain ⟨pass, swept⟩ := sweep_total epsilon ((built_signed _ _).1 built).2
  have falls := sweep_signed built swept
  cases count with
  | zero =>
      have still : sweep epsilon (.signed .plus operand) = .ok ⟨.signed .plus operand, false⟩ :=
        settles
      rw [falls] at still
      simp [settle, reduceSigned] at still
  | succ count =>
      have rest := settles.swept falls
      exact ⟨Nat.succ_pos _, pass, swept, rest⟩

theorem still_under_sign {op : SignOp} {operand : Expr α} (built : (Expr.signed op operand).Built)
    (settles : Settles epsilon 0 (.signed op operand)) : Settles epsilon 0 operand := by
  obtain ⟨pass, swept⟩ := sweep_total epsilon ((built_signed _ _).1 built).2
  have still : sweep epsilon (.signed op operand) = .ok ⟨.signed op operand, false⟩ := settles
  rw [sweep_signed built swept] at still
  rcases settle_cases (reduceSigned op pass.tree) (.signed op pass.tree) pass.changed with
    ⟨-, same⟩ | ⟨reduct, -, same⟩
  · rw [same] at still
    injection still with still
    injection still with sameTree unchanged
    injection sameTree with _ sameOperand
    show sweep epsilon operand = .ok ⟨operand, false⟩
    rw [swept, ← sameOperand, ← unchanged]
  · rw [same] at still
    simp at still

theorem known_sign {op : SignOp} (known : op.isKnown = true) (other : op ≠ .minus) :
    op = .plus := by
  cases op with
  | plus => rfl
  | minus => exact absurd rfl other
  | other symbol => simp [SignOp.isKnown] at known

/-- A sign settles one sweep after its operand at the latest, and so does the operand
after the sign. Two minus signs that meet bring the inner operand up, which is why
neither half can be had without the other. -/
theorem settles_sign (count : Nat) :
    (∀ (op : SignOp) (operand : Expr α), (Expr.signed op operand).Built →
      Settles epsilon count operand → Settles epsilon (count + 1) (.signed op operand)) ∧
    (∀ operand : Expr α, (Expr.signed .minus operand).Built →
      Settles epsilon count (.signed .minus operand) → Settles epsilon (count + 1) operand) := by
  induction count with
  | zero =>
      constructor
      · intro op operand built settles
        have still : sweep epsilon operand = .ok ⟨operand, false⟩ := settles
        have swept := sweep_signed built still
        rcases settle_cases (reduceSigned op operand) (.signed op operand) false with
          ⟨-, same⟩ | ⟨reduct, reduces, same⟩
        · rw [same] at swept
          have still : Settles epsilon 0 (.signed op operand) := swept
          exact still.succ
        · rw [same] at swept
          refine ⟨_, swept, ?_⟩
          have builtOperand := ((built_signed _ _).1 built).2
          cases reduce_signed_rule reduces with
          | plus => exact settles
          | number minus value => exact settles_num _ _
          | minusMinus minus inner => exact still_under_sign builtOperand settles
          | minusOther minus other inner =>
              obtain ⟨known, builtInner⟩ := (built_signed _ _).1 builtOperand
              obtain rfl := known_sign known other
              exact absurd (settles_under_plus builtOperand settles).1 (by omega)
      · intro operand built settles
        exact (still_under_sign built settles).succ
  | succ count induction =>
      obtain ⟨above, under⟩ := induction
      constructor
      · intro op operand built settles
        obtain ⟨known, builtOperand⟩ := (built_signed _ _).1 built
        obtain ⟨pass, sweptOperand, rest⟩ := settles
        have builtPass := (sweep_rewrites sweptOperand).built builtOperand
        have swept := sweep_signed built sweptOperand
        rcases settle_cases (reduceSigned op pass.tree) (.signed op pass.tree) pass.changed with
          ⟨-, same⟩ | ⟨reduct, reduces, same⟩
        · rw [same] at swept
          exact ⟨_, swept, above op pass.tree ((built_signed _ _).2 ⟨known, builtPass⟩) rest⟩
        · rw [same] at swept
          refine ⟨_, swept, ?_⟩
          generalize pass.tree = swept' at *
          cases reduce_signed_rule reduces with
          | plus => exact rest.succ
          | number minus value => exact settles_num _ _
          | minusMinus minus inner => exact under _ builtPass rest
          | minusOther minus other inner =>
              obtain ⟨knownInside, builtInner⟩ := (built_signed _ _).1 builtPass
              obtain rfl := known_sign knownInside other
              exact above .minus inner ((built_signed _ _).2 ⟨rfl, builtInner⟩)
                (settles_under_plus builtPass rest).2
      · intro operand built settles
        obtain ⟨known, builtOperand⟩ := (built_signed _ _).1 built
        obtain ⟨pass, sweptOperand⟩ := sweep_total epsilon builtOperand
        have builtPass := (sweep_rewrites sweptOperand).built builtOperand
        have rest := settles.swept (sweep_signed built sweptOperand)
        refine ⟨pass, sweptOperand, ?_⟩
        rcases settle_cases (reduceSigned .minus pass.tree) (.signed .minus pass.tree)
          pass.changed with ⟨-, same⟩ | ⟨reduct, reduces, same⟩
        · rw [same] at rest
          exact under pass.tree ((built_signed _ _).2 ⟨rfl, builtPass⟩) rest
        · rw [same] at rest
          generalize pass.tree = swept' at *
          cases reduce_signed_rule reduces with
          | number minus value => exact settles_num _ _
          | minusMinus minus inner => exact above .minus _ builtPass rest
          | minusOther minus other inner =>
              obtain ⟨knownInside, builtInner⟩ := (built_signed _ _).1 builtPass
              obtain rfl := known_sign knownInside other
              exact settles_plus builtPass
                (under inner ((built_signed _ _).2 ⟨rfl, builtInner⟩) rest)

theorem built_twice {tree : Expr α} (built : tree.Built) :
    (Expr.binary .mul (wholeNumber 2) tree).Built :=
  (built_binary _ _ _).2 ⟨rfl, built_num _, built⟩

/-- Where neither operand changes any more and no rule applies, only folding is left
to happen. -/
theorem settles_of_still {op : BinaryOp} {lhs rhs : Expr α} (built : (Expr.binary op lhs rhs).Built)
    (left : Settles epsilon 0 lhs) (right : Settles epsilon 0 rhs)
    (irreducible : reduceBinary epsilon op lhs rhs = none) :
    Settles epsilon 1 (.binary op lhs rhs) := by
  have sweptLeft : sweep epsilon lhs = .ok ⟨lhs, false⟩ := left
  have sweptRight : sweep epsilon rhs = .ok ⟨rhs, false⟩ := right
  rcases sweep_binary built sweptLeft sweptRight with ⟨value, swept⟩ | swept
  · exact ⟨_, swept, settles_num _ _⟩
  · rw [irreducible] at swept
    have still : Settles epsilon 0 (.binary op lhs rhs) := swept
    exact still.succ

theorem settles_twice_still {tree : Expr α} (built : tree.Built)
    (settles : Settles epsilon 0 tree) : Settles epsilon 1 (.binary .mul (wholeNumber 2) tree) := by
  have two : Settles epsilon 0 (wholeNumber 2 : Expr α) := settles_num _ _
  cases reduces : reduceBinary epsilon .mul (wholeNumber 2) tree with
  | none => exact settles_of_still (built_twice built) two settles reduces
  | some reduct =>
      rcases sweep_binary (built_twice built) two settles with ⟨value, swept⟩ | swept
      · exact ⟨_, swept, settles_num _ _⟩
      · rw [reduces] at swept
        refine ⟨_, swept, ?_⟩
        cases reduce_binary_rule reduces with
        | oneTimes one => exact settles
        | timesOne one => exact two
        | zeroTimes zero => exact settles_num _ _
        | timesZero zero => exact settles_num _ _

/-- One sweep over a binary node: what comes of it has one sweep fewer to go, provided
that this is so for a node that stays as it is and for twice an operand. -/
theorem settles_binary_step {count : Nat}
    (stays : ∀ (op : BinaryOp) (lhs rhs : Expr α), (Expr.binary op lhs rhs).Built →
      Settles epsilon count lhs → Settles epsilon count rhs →
        reduceBinary epsilon op lhs rhs = none → Settles epsilon (count + 1) (.binary op lhs rhs))
    (twice : ∀ tree : Expr α, tree.Built → Settles epsilon count tree →
      Settles epsilon (count + 1) (.binary .mul (wholeNumber 2) tree))
    {op : BinaryOp} {lhs rhs : Expr α} (built : (Expr.binary op lhs rhs).Built)
    (left : Settles epsilon (count + 1) lhs) (right : Settles epsilon (count + 1) rhs) :
    Settles epsilon (count + 2) (.binary op lhs rhs) := by
  obtain ⟨known, builtLhs, builtRhs⟩ := (built_binary _ _ _).1 built
  obtain ⟨passLeft, sweptLeft, restLeft⟩ := left
  obtain ⟨passRight, sweptRight, restRight⟩ := right
  have builtLeft := (sweep_rewrites sweptLeft).built builtLhs
  have builtRight := (sweep_rewrites sweptRight).built builtRhs
  rcases sweep_binary built sweptLeft sweptRight with ⟨value, swept⟩ | swept
  · exact ⟨_, swept, settles_num _ _⟩
  · refine ⟨_, swept, ?_⟩
    cases reduces : reduceBinary epsilon op passLeft.tree passRight.tree with
    | none =>
        exact stays op _ _ ((built_binary _ _ _).2 ⟨known, builtLeft, builtRight⟩) restLeft
          restRight reduces
    | some reduct =>
        generalize passLeft.tree = left at *
        generalize passRight.tree = right at *
        show Settles epsilon (count + 1) reduct
        cases reduce_binary_rule reduces with
        | zeroPlus | oneTimes => exact restRight.succ
        | plusZero | minusZero | timesOne | overOne | powerOne => exact restLeft.succ
        | plusSame => exact twice _ builtLeft restLeft
        | zeroMinus =>
            exact (settles_sign count).1 .minus _ ((built_signed _ _).2 ⟨rfl, builtRight⟩) restRight
        | minusSame | zeroTimes | timesZero | zeroOver | overSame | zeroPower | onePower |
          powerZero => exact settles_num _ _

theorem settles_binary {count : Nat} {op : BinaryOp} {lhs rhs : Expr α}
    (built : (Expr.binary op lhs rhs).Built) (left : Settles epsilon (count + 1) lhs)
    (right : Settles epsilon (count + 1) rhs) :
    Settles epsilon (count + 2) (.binary op lhs rhs) := by
  induction count generalizing op lhs rhs with
  | zero =>
      refine settles_binary_step ?_ ?_ built left right
      · intro op lhs rhs built left right irreducible
        exact settles_of_still built left right irreducible
      · intro tree built settles
        exact settles_twice_still built settles
  | succ count induction =>
      refine settles_binary_step ?_ ?_ built left right
      · intro op lhs rhs built left right _
        exact induction built left right
      · intro tree built settles
        exact induction (built_twice built) (settles_num _ _) settles

theorem settles_call {count : Nat} {name : String} {arg : Expr α}
    (built : (Expr.call name arg).Built) (settles : Settles epsilon count arg) :
    Settles epsilon (count + 1) (.call name arg) := by
  obtain ⟨named, builtArg⟩ := (built_call _ _).1 built
  induction count generalizing arg with
  | zero =>
      have swept := sweep_call built (show sweep epsilon arg = .ok ⟨arg, false⟩ from settles)
      rcases settle_cases (reduceCall epsilon name arg) (.call name arg) false with
        ⟨-, same⟩ | ⟨reduct, reduces, same⟩
      · rw [same] at swept
        have still : Settles epsilon 0 (.call name arg) := swept
        exact still.succ
      · rw [same] at swept
        refine ⟨_, swept, ?_⟩
        cases reduce_call_rule reduces <;> exact settles_num _ _
  | succ count induction =>
      obtain ⟨pass, sweptArg, rest⟩ := settles
      have builtPass := (sweep_rewrites sweptArg).built builtArg
      have swept := sweep_call built sweptArg
      refine ⟨_, swept, ?_⟩
      rcases settle_cases (reduceCall epsilon name pass.tree) (.call name pass.tree) pass.changed
        with ⟨-, same⟩ | ⟨reduct, reduces, same⟩
      · rw [same]
        exact induction ((built_call _ _).2 ⟨named, builtPass⟩) rest builtPass
      · rw [same]
        generalize pass.tree = swept' at *
        cases reduce_call_rule reduces <;> exact settles_num _ _

theorem settles_marked {count : Nat} {op : MarkOp} {operand : Expr α}
    (built : (Expr.marked op operand).Built) (settles : Settles epsilon count operand) :
    Settles epsilon count (.marked op operand) := by
  obtain ⟨known, builtOperand⟩ := (built_marked _ _).1 built
  induction count generalizing operand with
  | zero =>
      have still : sweep epsilon operand = .ok ⟨operand, false⟩ := settles
      exact sweep_marked built still
  | succ count induction =>
      obtain ⟨pass, swept, rest⟩ := settles
      have builtPass := (sweep_rewrites swept).built builtOperand
      exact ⟨_, sweep_marked built swept,
        induction ((built_marked _ _).2 ⟨known, builtPass⟩) rest builtPass⟩

theorem settles_height {tree : Expr α} (built : tree.Built) : Settles epsilon tree.height tree := by
  induction tree with
  | missing => exact absurd built built_missing
  | num value => exact settles_num _ _
  | var name => exact settles_var _ _
  | binary op lhs rhs left right =>
      obtain ⟨-, builtLeft, builtRight⟩ := (built_binary _ _ _).1 built
      have settlesLeft := (left builtLeft).mono (Nat.le_max_left lhs.height rhs.height)
      have settlesRight := (right builtRight).mono (Nat.le_max_right lhs.height rhs.height)
      have positive : max lhs.height rhs.height ≠ 0 := by
        have := height_positive lhs
        omega
      obtain ⟨count, same⟩ := Nat.exists_eq_succ_of_ne_zero positive
      show Settles epsilon (max lhs.height rhs.height + 1) (.binary op lhs rhs)
      rw [same] at settlesLeft settlesRight ⊢
      exact settles_binary built settlesLeft settlesRight
  | signed op operand inner =>
      exact (settles_sign _).1 op operand built (inner ((built_signed _ _).1 built).2)
  | marked op operand inner =>
      exact (settles_marked built (inner ((built_marked _ _).1 built).2)).succ
  | call name arg inner => exact settles_call built (inner ((built_call _ _).1 built).2)

theorem sweeps_fault {left before : Nat} {tree : Expr α} (built : tree.Built) :
    (∃ result, sweepsFrom epsilon left before tree = .ok result) ∨
      sweepsFrom epsilon left before tree =
        .error (.simplification (.unsettled sweepLimit)) := by
  induction left generalizing before tree with
  | zero => exact .inr rfl
  | succ left induction =>
      obtain ⟨pass, swept⟩ := sweep_total epsilon built
      cases changed : pass.changed with
      | false =>
          left
          exact ⟨⟨pass.tree, before + 1⟩, by simp [sweepsFrom, swept, changed]⟩
      | true =>
          have rest : sweepsFrom epsilon (left + 1) before tree =
              sweepsFrom epsilon left (before + 1) pass.tree := by
            simp [sweepsFrom, swept, changed]
          rw [rest]
          exact induction ((sweep_rewrites swept).built built)

/-- A built tree is optimized, unless it is as deep as the limit on sweeps and the
limit is reached. -/
theorem run_of_built {tree : Expr α} (built : tree.Built) :
    (∃ result, run epsilon tree = .ok result) ∨
      sweepLimit ≤ tree.depth ∧
        run epsilon tree = .error (.simplification (.unsettled sweepLimit)) := by
  rcases Nat.lt_or_ge tree.depth sweepLimit with shallow | deep
  · rw [depth_eq_height] at shallow
    obtain ⟨result, done, -⟩ := sweeps_of_settles 0 (settles_height built) shallow
    exact .inl ⟨result, done⟩
  · rcases sweeps_fault built with done | failed
    · exact .inl done
    · exact .inr ⟨deep, failed⟩

end Fluxion.Simplify
