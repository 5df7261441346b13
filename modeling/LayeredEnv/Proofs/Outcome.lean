import LayeredEnv.Loading.Session

set_option autoImplicit false

namespace LayeredEnv

variable {α β ε : Type}

theorem map_eq_ok_iff {f : α → β} {result : Except ε α} {value : β} :
    result.map f = .ok value ↔ ∃ inner, result = .ok inner ∧ f inner = value := by
  cases result <;> simp [Except.map]

theorem bind_eq_ok_iff {f : α → Except ε β} {result : Except ε α} {value : β} :
    result.bind f = .ok value ↔ ∃ inner, result = .ok inner ∧ f inner = .ok value := by
  cases result <;> simp [Except.bind]

theorem map_eq_error_iff {f : α → β} {result : Except ε α} {error : ε} :
    result.map f = .error error ↔ result = .error error := by
  cases result <;> simp [Except.map]

theorem bind_eq_error_iff {f : α → Except ε β} {result : Except ε α} {error : ε} :
    result.bind f = .error error ↔
      result = .error error ∨ ∃ inner, result = .ok inner ∧ f inner = .error error := by
  cases result <;> simp [Except.bind]

theorem mapError_eq_ok_iff {ε' : Type} {f : ε → ε'} {result : Except ε α} {value : α} :
    result.mapError f = .ok value ↔ result = .ok value := by
  cases result with
  | ok inner =>
    change Except.ok inner = Except.ok value ↔ Except.ok inner = Except.ok value
    simp
  | error error =>
    change Except.error (f error) = Except.ok value ↔ Except.error error = Except.ok value
    simp

namespace Action

variable {action : Action α} {next : α → Action β} {session : Session}

def value (action : Action α) (session : Session) : Except LoadError α :=
  match action session with
  | .ok value _ => .ok value
  | .error error _ => .error error

def after (action : Action α) (session : Session) : Session :=
  match action session with
  | .ok _ final => final
  | .error _ final => final

theorem eq_ok_iff {value : α} {final : Session} :
    action session = .ok value final ↔
      action.value session = .ok value ∧ action.after session = final := by
  simp only [Action.value, after]
  cases action session <;> simp

theorem eq_error_iff {error : LoadError} {final : Session} :
    action session = .error error final ↔
      action.value session = .error error ∧ action.after session = final := by
  simp only [Action.value, after]
  cases action session <;> simp

@[simp] theorem value_pure (value : α) : (pure value : Action α).value session = .ok value := rfl

@[simp] theorem after_pure (value : α) : (pure value : Action α).after session = session := rfl

@[simp] theorem value_bind :
    (action >>= next).value session =
      (action.value session).bind fun value => (next value).value (action.after session) := by
  simp only [Action.value, after, bind, EStateM.bind]
  cases action session <;> rfl

@[simp] theorem after_bind :
    (action >>= next).after session =
      match action.value session with
      | .ok value => (next value).after (action.after session)
      | .error _ => action.after session := by
  simp only [Action.value, after, bind, EStateM.bind]
  cases action session <;> rfl

@[simp] theorem value_map (f : α → β) :
    (f <$> action).value session = (action.value session).map f := by
  simp only [Action.value, Functor.map, EStateM.map]
  cases action session <;> rfl

@[simp] theorem after_map (f : α → β) : (f <$> action).after session = action.after session := by
  simp only [after, Functor.map, EStateM.map]
  cases action session <;> rfl

theorem tryCatch_eq (handler : LoadError → Action α) :
    tryCatch action handler session =
      match action session with
      | .ok value final => .ok value final
      | .error error final => handler error final := by
  simp only [tryCatch, tryCatchThe, MonadExceptOf.tryCatch]
  delta EStateM.tryCatch
  cases action session <;> rfl

@[simp] theorem value_tryCatch (handler : LoadError → Action α) :
    (tryCatch action handler).value session =
      match action.value session with
      | .ok value => .ok value
      | .error error => (handler error).value (action.after session) := by
  simp only [Action.value, after, tryCatch_eq]
  cases action session <;> rfl

@[simp] theorem after_tryCatch (handler : LoadError → Action α) :
    (tryCatch action handler).after session =
      match action.value session with
      | .ok _ => action.after session
      | .error error => (handler error).after (action.after session) := by
  simp only [Action.value, after, tryCatch_eq]
  cases action session <;> rfl

@[simp] theorem value_throw (error : LoadError) :
    (throw error : Action α).value session = .error error := rfl

@[simp] theorem after_throw (error : LoadError) :
    (throw error : Action α).after session = session := rfl

@[simp] theorem value_ofExcept (result : Except LoadError α) :
    (ofExcept result).value session = result := by
  cases result <;> rfl

@[simp] theorem after_ofExcept (result : Except LoadError α) :
    (ofExcept result).after session = session := by
  cases result <;> rfl

@[simp] theorem value_noteAll (notices : List Notice) :
    (noteAll notices).value session = .ok () := rfl

@[simp] theorem vars_noteAll (notices : List Notice) :
    ((noteAll notices).after session).vars = session.vars := rfl

@[simp] theorem value_note (notice : Notice) : (note notice).value session = .ok () := rfl

@[simp] theorem vars_note (notice : Notice) :
    ((note notice).after session).vars = session.vars := rfl

@[simp] theorem value_vars : vars.value session = .ok session.vars := rfl

@[simp] theorem after_vars : vars.after session = session := rfl

@[simp] theorem value_unset (key : String) : (unset key).value session = .ok () := rfl

@[simp] theorem vars_unset (key : String) :
    ((unset key).after session).vars = session.vars.erase key := rfl

@[simp] theorem value_assign (key text : String) : (assign key text).value session = .ok () := rfl

@[simp] theorem vars_assign (key text : String) :
    ((assign key text).after session).vars = session.vars.insert key text := rfl

def Quiet (action : Action α) : Prop := ∀ session, (action.after session).vars = session.vars

theorem Quiet.bind (first : action.Quiet) (later : ∀ value, (next value).Quiet) :
    (action >>= next).Quiet := by
  intro session
  rw [after_bind]
  cases action.value session with
  | ok value => exact (later value _).trans (first session)
  | error _ => exact first session

theorem Quiet.foldlM {step : β → α → Action β} (quiet : ∀ state item, (step state item).Quiet)
    (items : List α) (state : β) : (items.foldlM step state).Quiet := by
  induction items generalizing state with
  | nil => exact fun _ => rfl
  | cons item rest ih =>
    rw [List.foldlM_cons]
    exact (quiet state item).bind fun state => ih state

def Writes (action : Action Unit) (write : Variables → Variables) : Prop :=
  ∀ session, action.value session = .ok () ∧ (action.after session).vars = write session.vars

theorem Writes.forM {step : α → Action Unit} {write : α → Variables → Variables}
    (each : ∀ item, (step item).Writes (write item)) (items : List α) :
    (items.forM step).Writes fun vars => items.foldl (fun vars item => write item vars) vars := by
  induction items with
  | nil => exact fun _ => ⟨rfl, rfl⟩
  | cons item rest ih =>
    intro session
    obtain ⟨succeeds, written⟩ := each item session
    obtain ⟨later, final⟩ := ih ((step item).after session)
    rw [written] at final
    rw [List.forM_eq_forM, List.forM_cons, value_bind, after_bind, succeeds]
    exact ⟨later, final⟩

end Action
end LayeredEnv
