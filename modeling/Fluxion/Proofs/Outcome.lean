import Fluxion.Fault

/-!
Results that may be faults, taken apart. A sequence of steps succeeds exactly if
every step does; its fault is the fault of the first step that fails.
-/

namespace Fluxion.Outcome

variable {ε β γ : Type}

@[simp] theorem ok_bind (value : β) (next : β → Except ε γ) :
    (Except.ok value >>= next) = next value := rfl

@[simp] theorem error_bind (fault : ε) (next : β → Except ε γ) :
    (Except.error fault >>= next) = .error fault := rfl

@[simp] theorem map_ok (value : β) (next : β → γ) :
    next <$> (Except.ok value : Except ε β) = .ok (next value) := rfl

@[simp] theorem pure_eq_ok {value result : β} :
    (pure value : Except ε β) = .ok result ↔ value = result := by
  simp [pure, Except.pure]

@[simp] theorem throw_eq_ok {fault : ε} {result : β} :
    (throw fault : Except ε β) = .ok result ↔ False := by
  simp [throw, throwThe, MonadExceptOf.throw]

@[simp] theorem throw_eq_error {fault other : ε} :
    (throw fault : Except ε β) = .error other ↔ fault = other := by
  simp [throw, throwThe, MonadExceptOf.throw]

@[simp] theorem pure_eq_error {value : β} {fault : ε} :
    (pure value : Except ε β) = .error fault ↔ False := by
  simp [pure, Except.pure]

@[simp] theorem bind_eq_ok {step : Except ε β} {next : β → Except ε γ} {result : γ} :
    step >>= next = .ok result ↔ ∃ value, step = .ok value ∧ next value = .ok result := by
  cases step <;> simp [bind, Except.bind]

@[simp] theorem bind_eq_error {step : Except ε β} {next : β → Except ε γ} {fault : ε} :
    step >>= next = .error fault ↔
      step = .error fault ∨ ∃ value, step = .ok value ∧ next value = .error fault := by
  cases step <;> simp [bind, Except.bind]

theorem map_m_ok {step : β → Except ε γ} {holds : γ → Prop} {values : List β}
    (succeeds : ∀ value ∈ values, ∃ result, step value = .ok result ∧ holds result) :
    ∃ results, values.mapM step = .ok results ∧ results.length = values.length ∧
      ∀ result ∈ results, holds result := by
  induction values with
  | nil => exact ⟨[], rfl, rfl, nofun⟩
  | cons value values induction =>
      obtain ⟨first, done, held⟩ := succeeds value List.mem_cons_self
      obtain ⟨rest, doneRest, length, heldRest⟩ :=
        induction fun other member => succeeds other (List.mem_cons_of_mem value member)
      refine ⟨first :: rest, ?_, congrArg Nat.succ length, List.forall_mem_cons.2 ⟨held, heldRest⟩⟩
      rw [List.mapM_cons, done, ok_bind, doneRest, ok_bind]
      rfl

theorem to_option_eq_some {result : Except ε β} {value : β} :
    result.toOption = some value ↔ result = .ok value := by
  cases result <;> simp [Except.toOption]

/-- Two results that agree: values of which the relation holds, or the same fault. -/
inductive Agree {β' : Type} (related : β → β' → Prop) : Except ε β → Except ε β' → Prop
  | ok {value : β} {value' : β'} (holds : related value value') :
      Agree related (.ok value) (.ok value')
  | error (fault : ε) : Agree related (.error fault) (.error fault)

section

variable {β' γ' : Type} {related : β → β' → Prop} {related' : γ → γ' → Prop}
variable {first : Except ε β} {second : Except ε β'}

/-- Steps that agree go on agreeing if what follows them does, on the values they had. -/
theorem Agree.bind {next : β → Except ε γ} {next' : β' → Except ε γ'}
    (agree : Agree related first second)
    (continues : ∀ value value', first = .ok value → related value value' →
      Agree related' (next value) (next' value')) :
    Agree related' (first >>= next) (second >>= next') := by
  cases agree with
  | ok holds => exact continues _ _ rfl holds
  | error fault => exact .error fault

theorem Agree.imp {stronger : β → β' → Prop} (agree : Agree related first second)
    (implies : ∀ value value', first = .ok value → related value value' → stronger value value') :
    Agree stronger first second := by
  cases agree with
  | ok holds => exact .ok (implies _ _ rfl holds)
  | error fault => exact .error fault

theorem agree_pure {value : β} {value' : β'} (holds : related value value') :
    Agree related (pure value : Except ε β) (pure value') := .ok holds

theorem Agree.eq_map {change : β → β'} (agree : Agree related first second)
    (determined : ∀ value value', related value value' → value' = change value) :
    second = first.map change := by
  cases agree with
  | ok holds => exact congrArg Except.ok (determined _ _ holds)
  | error fault => rfl

end

section

variable {σ : Type} {step : EStateM ε σ β} {next : β → EStateM ε σ γ} {state after : σ}

theorem bind_ok_iff {result : γ} :
    (step >>= next) state = .ok result after ↔
      ∃ value between, step state = .ok value between ∧ next value between = .ok result after := by
  show EStateM.bind step next state = _ ↔ _
  unfold EStateM.bind
  cases step state with
  | ok value between =>
      constructor
      · exact fun done => ⟨value, between, rfl, done⟩
      · rintro ⟨_, _, same, done⟩
        cases same
        exact done
  | error fault between => simp

theorem bind_ok_of_ok {value : β} {between : σ} (done : step state = .ok value between) :
    (step >>= next) state = next value between := by
  show EStateM.bind step next state = _
  unfold EStateM.bind
  rw [done]

theorem bind_error_of_error {fault : ε} (failed : step state = .error fault after) :
    (step >>= next) state = .error fault after := by
  show EStateM.bind step next state = _
  unfold EStateM.bind
  rw [failed]

theorem get_bind {next : σ → EStateM ε σ γ} : (get >>= next) state = next state state := rfl

theorem modify_bind {change : σ → σ} {next : PUnit → EStateM ε σ γ} :
    (modify change >>= next) state = next ⟨⟩ (change state) := rfl

theorem pure_ok_iff {value result : β} :
    (pure value : EStateM ε σ β) state = .ok result after ↔ value = result ∧ state = after := by
  show EStateM.Result.ok value state = _ ↔ _
  simp

end

end Fluxion.Outcome
