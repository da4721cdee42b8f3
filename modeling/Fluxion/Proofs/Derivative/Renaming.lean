import Fluxion.Proofs.Derivative.Related

/-!
The name of the variable of differentiation. Renaming it to one that does not occur gives
a related tree, and what is related to a tree in this way is the renamed tree. So the
rules give the renamed derivative. Optimization takes the logarithm of one name, Euler's
number, and there the name does matter. Main statement: differentiation commutes with
renaming, and so does optimized differentiation if neither name is that one, or if the
variable comes under no logarithm.
-/

namespace Fluxion

open Outcome

variable {α : Type}

namespace Expr

/-- Another name for a variable, wherever it occurs. Functions keep their names. -/
def rename (v w : String) : Expr α → Expr α
  | missing => missing
  | num value => num value
  | var name => var (if name = v then w else name)
  | binary op lhs rhs => binary op (lhs.rename v w) (rhs.rename v w)
  | signed op operand => signed op (operand.rename v w)
  | marked op operand => marked op (operand.rename v w)
  | call name arg => call name (arg.rename v w)

def Renamed (v w x y : String) : Prop := x ≠ w ∧ y = if x = v then w else x

variable {v w : String} {tree tree' : Expr α}

theorem related_rename (fresh : tree.isConstant w = true) :
    tree.Related Eq (Renamed v w) (tree.rename v w) := by
  induction tree with
  | missing => exact .missing
  | num value => exact .num rfl
  | var name => exact .var ⟨by simpa [isConstant] using fresh, rfl⟩
  | binary op lhs rhs left right =>
      simp only [isConstant, Bool.and_eq_true] at fresh
      exact .binary op (left fresh.1) (right fresh.2)
  | signed op operand inner => exact .signed op (inner fresh)
  | marked op operand inner => exact .marked op (inner fresh)
  | call name arg inner => exact .call name (inner fresh)

theorem Related.eq_rename (related : tree.Related Eq (Renamed v w) tree') :
    tree' = tree.rename v w := by
  induction related with
  | missing => rfl
  | num close => rw [rename, close]
  | var close => rw [rename, close.2]
  | binary op left right first second => rw [rename, first, second]
  | signed op inner induction | marked op inner induction | call name inner induction =>
      rw [rename, induction]

theorem Related.fresh (related : tree.Related Eq (Renamed v w) tree') :
    tree.isConstant w = true := by
  induction related with
  | missing | num close => rfl
  | var close => simpa [isConstant] using close.1
  | binary op left right first second => rw [isConstant, first, second, Bool.and_self]
  | signed op inner induction | marked op inner induction | call name inner induction =>
      exact induction

theorem renamed_itself {x y : String} (renamed : Renamed v w x y) : x = v ↔ y = w := by
  unfold Renamed at renamed
  grind

/-- The old name is the only one that may start or stop being Euler's number. -/
theorem alike_renamed (named : w ≠ "") : AlikeNames v (Renamed v w) where
  equal := by
    unfold Renamed
    grind
  empty := by
    unfold Renamed
    grind
  euler := by
    unfold Renamed
    grind

theorem alike_renamed_of_not_euler (named : w ≠ "") (old : v ≠ eulerName) (new : w ≠ eulerName)
    (odd : String) : AlikeNames odd (Renamed v w) where
  equal := (alike_renamed named).equal
  empty := (alike_renamed named).empty
  euler := by
    unfold Renamed
    grind

end Expr

open Fluxion.Expr

/-- The rules treat a variable of differentiation alike under every name, and fail alike; so
does optimized differentiation, unless Euler's number may come into play. -/
theorem derivative_of_renamed [Scalar α] (tree : Expr α) (v w : String) (built : tree.Built)
    (marks : tree.Marks fun _ => True) (named : w ≠ "") (fresh : tree.isConstant w = true) :
    (tree.rename v w).rawDerivative w = (tree.rawDerivative v).map (rename v w) ∧
      ((v ≠ eulerName ∧ w ≠ eulerName ∨
          ∀ raw, tree.rawDerivative v = .ok raw → raw.ConstantUnderLn v) →
        (tree.rename v w).derivative w = (tree.derivative v).map (rename v w)) := by
  have differentiates := raw_derivative_agree (alike_renamed (v := v) named)
    (alike_numbers_eq Scalar.tolerance) renamed_itself (related_rename fresh) built marks
  refine ⟨differentiates.eq_map fun _ _ => Related.eq_rename, fun harmless => ?_⟩
  have optimizes : Agree (Related Eq (Renamed v w)) (tree.derivative v)
      ((tree.rename v w).derivative w) := by
    refine differentiates.bind fun raw raw' differentiated related => ?_
    rcases harmless with ⟨old, new⟩ | free
    · have alike := alike_renamed_of_not_euler named old new w
      exact optimize_agree (alike_numbers_eq _) alike related (constant_under_ln related.fresh)
    · exact optimize_agree (alike_numbers_eq _) (alike_renamed named) related
        (free raw differentiated)
  exact optimizes.eq_map fun _ _ => Related.eq_rename

def markedPower : Expr Float :=
  .binary .mul (.marked .prime (.call "f" (.var "x")))
    (.binary .pow (.var "x") (.num (Scalar.ofNat 3)))

theorem derivative_of_renamed_of_marked_power :
    markedPower.Built ∧ (markedPower.Marks fun _ => True) ∧ markedPower.isConstant "t" = true ∧
      ∃ next, markedPower.derivative "x" = .ok next ∧
        (markedPower.rename "x" "t").derivative "t" = .ok (next.rename "x" "t") := by
  have built : markedPower.Built := by simp [markedPower, BinaryOp.isKnown, MarkOp.isKnown]
  have marks : markedPower.Marks fun _ => True :=
    ⟨⟨⟨_, _, rfl, trivial⟩, trivial⟩, trivial, trivial⟩
  have fresh : markedPower.isConstant "t" = true := by decide
  have renamed := (derivative_of_renamed markedPower "x" "t" built marks (by decide) fresh).2
    (.inl ⟨by decide, by decide⟩)
  have answers : (markedPower.derivative "x").toOption.isSome = true := by decide +kernel
  obtain ⟨next, derived⟩ := Option.isSome_iff_exists.1 answers
  rw [to_option_eq_some] at derived
  rw [derived] at renamed
  exact ⟨built, marks, fresh, next, derived, renamed⟩

def timesLogarithm : Expr Float := .binary .mul (.var "x") (.call "ln" (.var "x"))

/-- The derivative is `x * (1 / x) + ln(x)`. With Euler's number for the variable the logarithm
is one. -/
theorem derivative_of_renamed_to_euler :
    timesLogarithm.Built ∧ (timesLogarithm.Marks fun _ => True) ∧
      timesLogarithm.isConstant eulerName = true ∧
      ∃ old new, timesLogarithm.derivative "x" = .ok old ∧
        (timesLogarithm.rename "x" eulerName).derivative eulerName = .ok new ∧
        new.same (old.rename "x" eulerName) = false := by
  have built : timesLogarithm.Built := by simp [timesLogarithm, BinaryOp.isKnown]
  have answers : ((do
      let old ← timesLogarithm.derivative "x"
      let new ← (timesLogarithm.rename "x" eulerName).derivative eulerName
      pure (new.same (old.rename "x" eulerName))) : Except Fault Bool).toOption = some false := by
    decide +kernel
  simp only [to_option_eq_some, bind_eq_ok, pure_eq_ok] at answers
  obtain ⟨old, derived, new, renamed, differs⟩ := answers
  exact ⟨built, ⟨trivial, trivial⟩, by decide, old, new, derived, renamed, differs⟩

end Fluxion
