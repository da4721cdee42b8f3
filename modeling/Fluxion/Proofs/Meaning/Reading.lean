import Fluxion.Proofs.Simplify.Rewriting

/-!
Trees read as partial functions. A reading says what numbers, names, operators and
functions mean; the value of a tree follows. Markers over a call ask for a derivative
of the function that is called, so their number is passed down to it. Values are
compared by a relation, since a reading need not tell the two zeros apart.
-/

namespace Fluxion

/-- A meaning for everything in a tree; what has none is `none`. -/
structure Reading (α β : Type) where
  number : α → β
  name : String → Option β
  negate : β → β
  operate : BinaryOp → β → β → Option β
  /-- The function of a name, differentiated as often as its call is marked. -/
  apply : Nat → String → β → Option β

namespace Reading

variable {α β : Type}

/-- The value of a tree under a number of markers. -/
def value (R : Reading α β) : Nat → Expr α → Option β
  | 0, .num v => some (R.number v)
  | 0, .var name => R.name name
  | 0, .binary op lhs rhs => do R.operate op (← R.value 0 lhs) (← R.value 0 rhs)
  | 0, .signed op operand => do
      let inner ← R.value 0 operand
      return if op = .minus then R.negate inner else inner
  | marks, .marked .prime operand => R.value (marks + 1) operand
  | marks, .call name arg => do R.apply marks name (← R.value 0 arg)
  | _, _ => none

variable {R : Reading α β}

@[simp] theorem value_missing (marks : Nat) : R.value marks .missing = none := by
  cases marks <;> rfl

theorem value_num {marks : Nat} {v : α} {a : β} :
    R.value marks (.num v) = some a ↔ marks = 0 ∧ R.number v = a := by
  cases marks <;> simp [value]

theorem value_var {marks : Nat} {name : String} {a : β} :
    R.value marks (.var name) = some a ↔ marks = 0 ∧ R.name name = some a := by
  cases marks <;> simp [value]

theorem value_binary {marks : Nat} {op : BinaryOp} {lhs rhs : Expr α} {a : β} :
    R.value marks (.binary op lhs rhs) = some a ↔
      marks = 0 ∧ ∃ b c, R.value 0 lhs = some b ∧ R.value 0 rhs = some c ∧
        R.operate op b c = some a := by
  cases marks <;> simp [value, Option.bind_eq_some_iff]

theorem value_signed {marks : Nat} {op : SignOp} {operand : Expr α} {a : β} :
    R.value marks (.signed op operand) = some a ↔
      marks = 0 ∧ ∃ b, R.value 0 operand = some b ∧
        (if op = .minus then R.negate b else b) = a := by
  cases marks <;> simp [value, Option.bind_eq_some_iff]

theorem value_marked {marks : Nat} {op : MarkOp} {operand : Expr α} {a : β} :
    R.value marks (.marked op operand) = some a ↔
      op = .prime ∧ R.value (marks + 1) operand = some a := by
  cases op <;> cases marks <;> simp [value]

theorem value_call {marks : Nat} {name : String} {arg : Expr α} {a : β} :
    R.value marks (.call name arg) = some a ↔
      ∃ b, R.value 0 arg = some b ∧ R.apply marks name b = some a := by
  cases marks <;> simp [value, Option.bind_eq_some_iff]

variable [Scalar α]

def whole (R : Reading α β) (n : Nat) : β := R.number (Scalar.ofNat n)

/-- The identities that folding and simplification rely on. Each speaks of results
that exist; only where a rule makes a new operation is its result asked for. -/
structure Lawful (R : Reading α β) (alike : β → β → Prop) : Prop where
  alike_equivalence : Equivalence alike
  same_number {a b : α} : Scalar.same a b = true → alike (R.number a) (R.number b)
  operate_alike {op : BinaryOp} {a a' b b' c : β} : alike a a' → alike b b' →
    R.operate op a b = some c → ∃ c', R.operate op a' b' = some c' ∧ alike c' c
  negate_alike {a a' : β} : alike a a' → alike (R.negate a) (R.negate a')
  apply_alike {marks : Nat} {name : String} {a a' b : β} : alike a a' →
    R.apply marks name a = some b → ∃ b', R.apply marks name a' = some b' ∧ alike b' b
  /-- Only a function without a rule has a meaning under markers. -/
  marked_unknown {marks : Nat} {name : String} {a b : β} :
    R.apply (marks + 1) name a = some b → NamedFunction.ofName? name = none
  fold_number {op : BinaryOp} {a b c : α} {d : β} : op.fold a b = .ok (some c) →
    R.operate op (R.number a) (R.number b) = some d → alike (R.number c) d
  negate_number (a : α) : alike (R.number (Scalar.neg a)) (R.negate (R.number a))
  negate_negate (a : β) : alike (R.negate (R.negate a)) a
  zero_add {a b : β} : R.operate .add (R.whole 0) a = some b → alike a b
  add_zero {a b : β} : R.operate .add a (R.whole 0) = some b → alike a b
  add_self {a b : β} : R.operate .add a a = some b →
    ∃ b', R.operate .mul (R.whole 2) a = some b' ∧ alike b' b
  sub_zero {a b : β} : R.operate .sub a (R.whole 0) = some b → alike a b
  zero_sub {a b : β} : R.operate .sub (R.whole 0) a = some b → alike (R.negate a) b
  sub_self {a b : β} : R.operate .sub a a = some b → alike (R.whole 0) b
  one_mul {a b : β} : R.operate .mul (R.whole 1) a = some b → alike a b
  mul_one {a b : β} : R.operate .mul a (R.whole 1) = some b → alike a b
  zero_mul {a b : β} : R.operate .mul (R.whole 0) a = some b → alike (R.whole 0) b
  mul_zero {a b : β} : R.operate .mul a (R.whole 0) = some b → alike (R.whole 0) b
  zero_div {a b : β} : R.operate .div (R.whole 0) a = some b → alike (R.whole 0) b
  div_one {a b : β} : R.operate .div a (R.whole 1) = some b → alike a b
  div_self {a b : β} : R.operate .div a a = some b → alike (R.whole 1) b
  zero_pow {a b : β} : ¬ alike a (R.whole 0) → R.operate .pow (R.whole 0) a = some b →
    alike (R.whole 0) b
  one_pow {a b : β} : R.operate .pow (R.whole 1) a = some b → alike (R.whole 1) b
  pow_zero {a b : β} : R.operate .pow a (R.whole 0) = some b → alike (R.whole 1) b
  pow_one {a b : β} : R.operate .pow a (R.whole 1) = some b → alike a b
  sin_zero {b : β} : R.apply 0 "sin" (R.whole 0) = some b → alike (R.whole 0) b
  tg_zero {b : β} : R.apply 0 "tg" (R.whole 0) = some b → alike (R.whole 0) b
  cos_zero {b : β} : R.apply 0 "cos" (R.whole 0) = some b → alike (R.whole 1) b
  ln_one {b : β} : R.apply 0 "ln" (R.whole 1) = some b → alike (R.whole 0) b
  ln_euler {a b : β} : R.name Expr.eulerName = some a → R.apply 0 "ln" a = some b →
    alike (R.whole 1) b

def NoZeroToZero (R : Reading α β) (alike : β → β → Prop) : Expr α → Prop
  | .missing | .num _ | .var _ => True
  | .binary op lhs rhs => R.NoZeroToZero alike lhs ∧ R.NoZeroToZero alike rhs ∧
      (op = .pow → ∀ a b, R.value 0 lhs = some a → R.value 0 rhs = some b →
        ¬ (alike a (R.whole 0) ∧ alike b (R.whole 0)))
  | .signed _ operand | .marked _ operand => R.NoZeroToZero alike operand
  | .call _ arg => R.NoZeroToZero alike arg

end Reading

end Fluxion
