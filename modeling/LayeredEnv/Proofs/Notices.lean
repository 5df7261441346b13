import LayeredEnv.Proofs.Outcome

set_option autoImplicit false

namespace LayeredEnv.Action

variable {α β : Type}

/-- How an action runs on some variables, whatever has been noted before. -/
structure Runs (action : Action α) (vars : Variables) (outcome : Except LoadError α)
    (final : Variables) (noted : List Notice) : Prop where
  value : ∀ earlier, action.value ⟨vars, earlier⟩ = outcome
  after : ∀ earlier, action.after ⟨vars, earlier⟩ = ⟨final, earlier ++ noted⟩

namespace Runs

variable {action : Action α} {next : α → Action β} {handler : LoadError → Action α}
  {vars middle final : Variables} {noted later : List Notice}

theorem pure (value : α) (vars : Variables) : Runs (pure value) vars (.ok value) vars [] :=
  ⟨fun _ => rfl, fun _ => by simp⟩

theorem read (vars : Variables) : Runs Action.vars vars (.ok vars) vars [] :=
  ⟨fun _ => rfl, fun _ => by simp⟩

theorem noteAll (notices : List Notice) (vars : Variables) :
    Runs (noteAll notices) vars (.ok ()) vars notices :=
  ⟨fun _ => rfl, fun _ => rfl⟩

theorem throw (error : LoadError) (vars : Variables) :
    Runs (throw error : Action α) vars (.error error) vars [] :=
  ⟨fun _ => rfl, fun _ => by simp⟩

theorem bind_ok {value : α} {outcome : Except LoadError β}
    (first : Runs action vars (.ok value) middle noted)
    (second : Runs (next value) middle outcome final later) :
    Runs (action >>= next) vars outcome final (noted ++ later) where
  value earlier := by
    rw [value_bind, first.value, first.after]
    exact second.value _
  after earlier := by
    rw [after_bind, first.value, first.after, ← List.append_assoc]
    exact second.after _

theorem bind_error {error : LoadError} (failed : Runs action vars (.error error) final noted) :
    Runs (action >>= next) vars (.error error) final noted where
  value earlier := by
    rw [value_bind, failed.value]
    rfl
  after earlier := by rw [after_bind, failed.value, failed.after]

theorem tryCatch_ok {value : α} (succeeds : Runs action vars (.ok value) final noted) :
    Runs (tryCatch action handler) vars (.ok value) final noted where
  value earlier := by rw [value_tryCatch, succeeds.value]
  after earlier := by rw [after_tryCatch, succeeds.value, succeeds.after]

theorem tryCatch_error {error : LoadError} {outcome : Except LoadError α}
    (failed : Runs action vars (.error error) middle noted)
    (handled : Runs (handler error) middle outcome final later) :
    Runs (tryCatch action handler) vars outcome final (noted ++ later) where
  value earlier := by
    rw [value_tryCatch, failed.value, failed.after]
    exact handled.value _
  after earlier := by
    rw [after_tryCatch, failed.value, failed.after, ← List.append_assoc]
    exact handled.after _

end Runs

/-- Two actions that run alike except for the given warnings: the loud one notes them, and the muted
one notes whatever else the loud one notes. -/
def Muted (loud muted : Action α) (vars : Variables) (outcome : Except LoadError α)
    (final : Variables) (warnings : List Notice) : Prop :=
  ∃ heard : List Notice, Runs loud vars outcome final heard ∧
    Runs muted vars outcome final (heard.filter fun notice => !notice.isWarning) ∧
    heard.filter Notice.isWarning = warnings

def Calm (action : Action α) : Prop :=
  ∀ vars, ∃ outcome final, Muted action action vars outcome final []

theorem Runs.muted {action : Action α} {vars final : Variables} {outcome : Except LoadError α}
    {noted : List Notice} (runs : Runs action vars outcome final noted)
    (plain : ∀ notice ∈ noted, notice.isWarning = false) :
    Muted action action vars outcome final [] := by
  have kept : (noted.filter fun notice => !notice.isWarning) = noted :=
    List.filter_eq_self.mpr fun notice member => by rw [plain notice member, Bool.not_false]
  have none : noted.filter Notice.isWarning = [] :=
    List.filter_eq_nil_iff.mpr fun notice member => by simp [plain notice member]
  exact ⟨noted, runs, by rwa [kept], none⟩

namespace Muted

variable {loud muted : Action α} {loudly mutedly : α → Action β} {vars middle final : Variables}
  {early late : List Notice}

theorem bind_ok {value : α} {outcome : Except LoadError β}
    (first : Muted loud muted vars (.ok value) middle early)
    (second : Muted (loudly value) (mutedly value) middle outcome final late) :
    Muted (loud >>= loudly) (muted >>= mutedly) vars outcome final (early ++ late) := by
  obtain ⟨heard, first, mutedFirst, rfl⟩ := first
  obtain ⟨more, second, mutedSecond, rfl⟩ := second
  have both := mutedFirst.bind_ok mutedSecond
  rw [← List.filter_append] at both
  exact ⟨heard ++ more, first.bind_ok second, both, List.filter_append _ _⟩

theorem bind_error {error : LoadError}
    (failed : Muted loud muted vars (.error error) final early) :
    Muted (loud >>= loudly) (muted >>= mutedly) vars (.error error) final early := by
  obtain ⟨heard, first, mutedFirst, warned⟩ := failed
  exact ⟨heard, first.bind_error, mutedFirst.bind_error, warned⟩

theorem bind_calm {next : α → Action β} {outcome : Except LoadError α}
    (first : Muted loud muted vars outcome final early) (calm : ∀ value, (next value).Calm) :
    ∃ outcome final, Muted (loud >>= next) (muted >>= next) vars outcome final early := by
  cases outcome with
  | error error => exact ⟨_, _, first.bind_error⟩
  | ok value =>
    obtain ⟨outcome, final, second⟩ := calm value final
    have both := first.bind_ok second
    rw [List.append_nil] at both
    exact ⟨outcome, final, both⟩

theorem value {outcome : Except LoadError α}
    (alike : Muted loud muted vars outcome final early) (earlier : List Notice) :
    loud.value ⟨vars, earlier⟩ = outcome := by
  obtain ⟨_, first, _⟩ := alike
  exact first.value earlier

theorem tryCatch_ok {value : α} {loudly mutedly : LoadError → Action α}
    (body : Muted loud muted vars (.ok value) final early) :
    Muted (tryCatch loud loudly) (tryCatch muted mutedly) vars (.ok value) final early := by
  obtain ⟨heard, first, mutedFirst, warned⟩ := body
  exact ⟨heard, first.tryCatch_ok, mutedFirst.tryCatch_ok, warned⟩

theorem tryCatch_error {error : LoadError} {outcome : Except LoadError α}
    {loudly mutedly : LoadError → Action α}
    (body : Muted loud muted vars (.error error) middle early)
    (handled : Muted (loudly error) (mutedly error) middle outcome final late) :
    Muted (tryCatch loud loudly) (tryCatch muted mutedly) vars outcome final (early ++ late) := by
  obtain ⟨heard, first, mutedFirst, rfl⟩ := body
  obtain ⟨more, second, mutedSecond, rfl⟩ := handled
  have both := mutedFirst.tryCatch_error mutedSecond
  rw [← List.filter_append] at both
  exact ⟨heard ++ more, first.tryCatch_error second, both, List.filter_append _ _⟩

theorem note (notice : Notice) (plain : notice.isWarning = false) (vars : Variables) :
    Muted (note notice) (note notice) vars (.ok ()) vars [] :=
  (Runs.noteAll [notice] vars).muted fun other member => by rwa [List.mem_singleton.mp member]

theorem warning {notice : Notice} {outcome : Except LoadError α}
    (warns : notice.isWarning = true) (rest : Runs muted vars outcome final []) :
    Muted (Action.note notice >>= fun _ => muted) muted vars outcome final [notice] := by
  refine ⟨[notice], (Runs.noteAll [notice] vars).bind_ok rest, ?_, ?_⟩ <;> simp [warns, rest]

end Muted

namespace Calm

variable {action : Action α} {next : α → Action β}

theorem of_unnoted (unnoted : ∀ vars, ∃ outcome final, Runs action vars outcome final []) :
    action.Calm := fun vars => by
  obtain ⟨outcome, final, runs⟩ := unnoted vars
  exact ⟨outcome, final, runs.muted (by simp)⟩

theorem pure (value : α) : Calm (pure value) :=
  .of_unnoted fun vars => ⟨_, _, Runs.pure value vars⟩

theorem read : Action.vars.Calm := .of_unnoted fun vars => ⟨_, _, Runs.read vars⟩

theorem throw (error : LoadError) : Calm (throw error : Action α) :=
  .of_unnoted fun vars => ⟨_, _, Runs.throw error vars⟩

theorem ofExcept (result : Except LoadError α) : (ofExcept result).Calm := by
  cases result with
  | ok value => exact .pure value
  | error error => exact .throw error

theorem unset (key : String) : (unset key).Calm :=
  .of_unnoted fun vars => ⟨.ok (), vars.erase key, fun _ => rfl, fun _ => by
    rw [List.append_nil]
    rfl⟩

theorem assign (key text : String) : (assign key text).Calm :=
  .of_unnoted fun vars => ⟨.ok (), vars.insert key text, fun _ => rfl, fun _ => by
    rw [List.append_nil]
    rfl⟩

theorem noteAll {notices : List Notice} (plain : ∀ notice ∈ notices, notice.isWarning = false) :
    (noteAll notices).Calm :=
  fun vars => ⟨_, _, (Runs.noteAll notices vars).muted plain⟩

theorem note {notice : Notice} (plain : notice.isWarning = false) : (note notice).Calm :=
  fun vars => ⟨_, _, .note notice plain vars⟩

theorem noteEach {notice : β → Notice} (plain : ∀ item, (notice item).isWarning = false)
    (items : List β) : (Action.noteAll (items.map notice)).Calm :=
  .noteAll (List.forall_mem_map.mpr fun item _ => plain item)

theorem bind (first : action.Calm) (later : ∀ value, (next value).Calm) :
    (action >>= next).Calm := fun vars => by
  obtain ⟨outcome, final, alike⟩ := first vars
  exact alike.bind_calm later

theorem foldlM {step : β → α → Action β} (calm : ∀ state item, (step state item).Calm)
    (items : List α) (state : β) : (items.foldlM step state).Calm := by
  induction items generalizing state with
  | nil => exact .pure state
  | cons item rest ih =>
    rw [List.foldlM_cons]
    exact (calm state item).bind fun state => ih state

theorem forM {step : α → Action Unit} (calm : ∀ item, (step item).Calm) (items : List α) :
    (items.forM step).Calm := by
  induction items with
  | nil => exact .pure ()
  | cons item rest ih =>
    rw [List.forM_eq_forM, List.forM_cons]
    exact (calm item).bind fun _ => ih

end Calm
end LayeredEnv.Action
