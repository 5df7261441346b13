import LayeredEnv.Proofs.Loading.Load

set_option autoImplicit false

namespace LayeredEnv.Loading

open Disk (FilePath Tree)

def selected (tree : Tree) (settings : Settings) (plan : List CascadeFile) : List FilePath :=
  match settings.files with
  | some files => (files.map (settings.workingDirectory tree).join).filter tree.isFile
  | none => plan.map CascadeFile.path

theorem selection_eq_ok {tree : Tree} {settings : Settings} {view : Session}
    {plan : List CascadeFile} (listed : (planned tree settings).value view = .ok plan)
    (filled : settings.files = none → plan ≠ []) :
    selection tree settings view.vars = .ok (selected tree settings plan) := by
  cases given : settings.files with
  | some files => simp only [selection, selected, given]
  | none =>
    have some : plan.isEmpty = false := by simpa using filled given
    rw [selection_of_planned given listed, some]
    simp [selected, given]

theorem cascaded_of_selected {tree : Tree} {settings : Settings} {vars : Variables} {view : Session}
    {plan : List CascadeFile} (staged : view.vars = (purged tree settings vars).vars)
    (listed : (planned tree settings).value view = .ok plan)
    (filled : settings.files = none → plan ≠ []) :
    cascaded tree settings vars =
      resolvedEntries tree settings view.vars (FilePath.distinct (selected tree settings plan)) := by
  rw [cascaded, ← staged, selection_eq_ok listed filled]
  rfl

/-- A cascade is a load of the selected files on the variables that purging leaves, except that it
fails if no file is given and none is planned. -/
theorem cascade_loads_selected (tree : Tree) (settings : Settings) (session view : Session)
    (plan : List CascadeFile)
    (staged : view.vars = (purged tree settings session.vars).vars)
    (listed : (planned tree settings).value view = .ok plan) :
    (settings.files = none → plan = [] →
      (cascade tree settings).value session =
        .error (.noMatchingFiles
          (Naming.describe settings.effectivePattern (environment settings view.vars).1)
          (settings.workingDirectory tree))) ∧
    ((settings.files = none → plan ≠ []) →
      (cascade tree settings).value session =
        (files tree settings (selected tree settings plan)).value view ∧
      ∀ loaded final, cascade tree settings session = .ok loaded final →
        ((files tree settings (selected tree settings plan)).after view).vars = final.vars) ∧
    ((settings.purge = true →
      tree.isFile ((settings.workingDirectory tree).join plainFile) = true →
      ∃ error, entriesOf tree settings.encoding
        ((settings.workingDirectory tree).join plainFile) = .error error) →
      view.vars = session.vars) ∧
    (∀ entries, settings.purge = true →
      entriesOf tree settings.encoding ((settings.workingDirectory tree).join plainFile) =
        .ok entries →
      ∀ key, view.vars[key]? =
        if AsWritten entries session.vars key then none else session.vars[key]?) := by
  refine ⟨?_, ?_, ?_, ?_⟩
  · intro implicit empty
    rw [value_cascade, cascaded, ← staged, selection_of_planned implicit listed, empty]
    rfl
  · intro filled
    have same := cascaded_of_selected staged listed filled
    refine ⟨by rw [value_cascade, value_files, same], fun loaded final ran => ?_⟩
    obtain ⟨result, rfl⟩ := Action.eq_ok_iff.mp ran
    rw [value_cascade] at result
    rw [vars_cascade, vars_files, ← same, result, varsAfter, varsAfter, written_purged, staged]
  · intro unread
    rw [staged, purged_of_unread]
    intro asked present
    rw [rawEntries_singleton]
    exact unread asked present
  · intro entries asked read key
    rw [staged, getElem?_purged asked read]

def namedTree : Tree where
  nodes := [(["w"], .directory), (["w", ".env"], .file "APP_ENV=production\n".toUTF8.toList),
    (["w", ".env.production"], .file "X=on\n".toUTF8.toList)]
  current := ⟨"/w"⟩

def namedSession : Session := ⟨Variables.ofList [("APP_ENV", "production")], []⟩

def namedPlan : List CascadeFile :=
  [⟨.base, ⟨"/w/.env"⟩⟩, ⟨.environment, ⟨"/w/.env.production"⟩⟩]

def namedSettings (environment : Option String) : Settings :=
  { purge := true, environment := environment }

theorem namedTree_reads :
    cascadeIn namedTree ⟨"/w"⟩ Naming.defaultPattern none = [⟨.base, ⟨"/w/.env"⟩⟩] ∧
    cascadeIn namedTree ⟨"/w"⟩ Naming.defaultPattern (some "production") = namedPlan ∧
    cascadeIn ⟨[], ⟨"/w"⟩⟩ ⟨"/w"⟩ Naming.defaultPattern none = [] ∧
    entriesOf namedTree none ⟨"/w/.env"⟩ = .ok [("APP_ENV", .str "production")] ∧
    entriesOf namedTree none ⟨"/w/.env.production"⟩ = .ok [("X", .str "on")] := by
  decide +kernel

theorem purged_namedTree (environment : Option String) :
    (purged namedTree (namedSettings environment) namedSession.vars).vars = ∅ := by
  have directory : (namedSettings environment).workingDirectory namedTree = ⟨"/w"⟩ := rfl
  have place : FilePath.join ⟨"/w"⟩ plainFile = ⟨"/w/.env"⟩ := by decide
  have read : entriesOf namedTree (namedSettings environment).encoding
      (((namedSettings environment).workingDirectory namedTree).join plainFile) =
        .ok [("APP_ENV", .str "production")] := by
    rw [directory, place]
    exact namedTree_reads.2.2.2.1
  have merged := (rawEntries_singleton _ _ (namedSettings environment).overlay _).trans read
  rw [purged_of_read rfl (isFile_of_entriesOf read) merged]
  decide

theorem planned_purged_namedTree :
    (planned namedTree (namedSettings none)).value ⟨∅, []⟩ = .ok [⟨.base, ⟨"/w/.env"⟩⟩] := by
  rw [value_planned]
  exact congrArg Except.ok namedTree_reads.1

theorem resolvedEntries_namedTree :
    resolvedEntries namedTree (namedSettings none) ∅ (FilePath.distinct [⟨"/w/.env"⟩]) =
      .ok [("APP_ENV", .str "production")] := by
  obtain ⟨_, _, _, base, _⟩ := namedTree_reads
  have read := (rawEntries_distinct_singleton namedTree none Overlay.default _).trans base
  rw [resolvedEntries_of_read read]
  simp only [Fields.keys, List.map_cons, List.map_nil]
  rw [resolveEntries_of_plain "production" (by simp) (rawText_of_field rfl) (by decide)]
  rfl

theorem purged_cascade_loads_base :
    (∃ final, cascade namedTree (namedSettings none) namedSession =
        .ok [("APP_ENV", .str "production")] final ∧
      ((files namedTree (namedSettings none) [⟨"/w/.env"⟩]).after ⟨∅, []⟩).vars = final.vars) ∧
    (cascade ⟨[], ⟨"/w"⟩⟩ {}).value ⟨∅, []⟩ =
      .error (.noMatchingFiles ".env[.node_env][.local]" ⟨"/w"⟩) := by
  constructor
  · obtain ⟨_, loads, _⟩ := cascade_loads_selected namedTree (namedSettings none) namedSession
      ⟨∅, []⟩ _ (purged_namedTree none).symm planned_purged_namedTree
    obtain ⟨value, vars⟩ := loads fun _ => by simp
    rw [value_files] at value
    have ran := Action.eq_ok_iff.mpr ⟨value.trans resolvedEntries_namedTree, rfl⟩
    exact ⟨_, ran, vars _ _ ran⟩
  · have unplanned : (planned ⟨[], ⟨"/w"⟩⟩ {}).value ⟨∅, []⟩ = .ok [] := by
      rw [value_planned]
      exact congrArg Except.ok namedTree_reads.2.2.1
    exact (cascade_loads_selected ⟨[], ⟨"/w"⟩⟩ {} ⟨∅, []⟩ ⟨∅, []⟩ [] rfl unplanned).1 rfl rfl

/-- Purging takes back the variable that the environment has its name from, and the fallback is
another name. -/
def NameTakenBack (tree : Tree) (settings : Settings) (vars : Variables) : Prop :=
  Naming.givenName settings.environment = none ∧
    ∃ name, name ≠ "" ∧ vars[settings.environmentVariable]? = some name ∧
      settings.environmentVariable ∉ (purged tree settings vars).vars ∧
      Naming.givenName settings.fallbackEnvironment ≠ some name

theorem environment_name (settings : Settings) (vars : Variables) :
    (environment settings vars).1 =
      ((Naming.givenName settings.environment).or
        (Naming.givenName vars[settings.environmentVariable]?)).or
        (Naming.givenName settings.fallbackEnvironment) := by
  rw [environment]
  cases Naming.givenName settings.environment with
  | some name => rfl
  | none =>
    cases Naming.givenName vars[settings.environmentVariable]? with
    | some name => rfl
    | none => cases Naming.givenName settings.fallbackEnvironment <;> rfl

theorem environment_kept_or_taken (tree : Tree) (settings : Settings) (vars : Variables) :
    (environment settings vars).1 = (environment settings (purged tree settings vars).vars).1 ∨
      NameTakenBack tree settings vars := by
  rw [environment_name, environment_name]
  -- The name is looked up in one variable, which purging can only take away.
  by_cases taken : settings.environmentVariable ∈ (purged tree settings vars).removals
  next =>
    have gone : (purged tree settings vars).vars[settings.environmentVariable]? = none := by
      rw [purged_vars, Variables.getElem?_eraseAll, if_pos taken]
    rw [gone]
    cases given : Naming.givenName settings.environment with
    | some name => exact .inl rfl
    | none =>
      cases named : Naming.givenName vars[settings.environmentVariable]? with
      | none => exact .inl rfl
      | some name =>
        by_cases again : Naming.givenName settings.fallbackEnvironment = some name
        next => exact .inl again.symm
        next =>
          obtain ⟨held, filled⟩ := Option.filter_eq_some_iff.mp named
          have absent : settings.environmentVariable ∉ (purged tree settings vars).vars := by
            rw [Std.ExtTreeMap.mem_iff_isSome_getElem?, gone]
            simp
          exact .inr ⟨given, name, of_decide_eq_true filled, held, absent, again⟩
  next =>
    left
    rw [purged_vars, Variables.getElem?_eraseAll, if_neg taken]

/-- The keys that a cascade loads are those of the files planned on the variables that purging
leaves. That is the plan made before, unless purging takes back the name of the environment. -/
theorem loaded_keys_of_plan (tree : Tree) (settings : Settings) (session final : Session)
    (loaded : Fields) (implicit : settings.files = none)
    (ran : cascade tree settings session = .ok loaded final) :
    ∃ plan later raw,
      (planned tree settings).value session = .ok plan ∧
      (planned tree settings).value
        { session with vars := (purged tree settings session.vars).vars } = .ok later ∧
      rawEntries tree settings.encoding settings.overlay
        (FilePath.distinct (later.map CascadeFile.path)) = .ok raw ∧
      loaded.keys = raw.keys ∧ (plan = later ∨ NameTakenBack tree settings session.vars) := by
  have listed := value_planned tree settings
    { session with vars := (purged tree settings session.vars).vars }
  have resolved := resolvedEntries_of_planned implicit rfl listed ran
  obtain ⟨raw, read, resolved⟩ := bind_eq_ok_iff.mp resolved
  have entries := mapError_eq_ok_iff.mp resolved
  refine ⟨_, _, raw, value_planned tree settings session, listed, read,
    resolveEntries_keys (fun _ member => member) entries, ?_⟩
  refine (environment_kept_or_taken tree settings session.vars).imp_left fun same => ?_
  rw [same]

theorem rawEntries_namedPlan :
    rawEntries namedTree none Overlay.default
      (FilePath.distinct (namedPlan.map CascadeFile.path)) =
        .ok [("APP_ENV", .str "production"), ("X", .str "on")] := by
  obtain ⟨_, _, _, base, upper⟩ := namedTree_reads
  have apart : FilePath.distinct (namedPlan.map CascadeFile.path) =
      [⟨"/w/.env"⟩, ⟨"/w/.env.production"⟩] := by decide
  simp only [apart, rawEntries, List.foldlM_cons, base, upper]
  rfl

theorem planned_named (vars : Variables) :
    (planned namedTree (namedSettings "production")).value ⟨vars, []⟩ = .ok namedPlan := by
  rw [value_planned]
  exact congrArg Except.ok namedTree_reads.2.1

theorem value_cascade_named :
    (cascade namedTree (namedSettings "production")).value namedSession =
      .ok [("APP_ENV", .str "production"), ("X", .str "on")] := by
  rw [value_cascade, cascaded_of_selected (purged_namedTree "production").symm (planned_named ∅)
    fun _ => by decide]
  refine (resolvedEntries_of_read rawEntries_namedPlan _).trans ?_
  simp only [Fields.keys, List.map_cons, List.map_nil]
  rw [resolveEntries_of_plain "production" (by simp) (rawText_of_field rfl) (by decide),
    resolveEntries_of_plain "on" (by simp) (rawText_of_field rfl) (by decide)]
  rfl

theorem given_name_keeps_plan :
    ∃ loaded final raw,
      cascade namedTree (namedSettings "production") namedSession = .ok loaded final ∧
      (planned namedTree (namedSettings "production")).value namedSession = .ok namedPlan ∧
      rawEntries namedTree none Overlay.default
        (FilePath.distinct (namedPlan.map CascadeFile.path)) = .ok raw ∧
      loaded.keys = raw.keys := by
  have ran := Action.eq_ok_iff.mpr ⟨value_cascade_named, rfl⟩
  have listed := planned_named namedSession.vars
  obtain ⟨plan, later, raw, before, _, read, keys, same⟩ :=
    loaded_keys_of_plan namedTree (namedSettings "production") namedSession _ _ rfl ran
  cases listed.symm.trans before
  rcases same with rfl | ⟨unnamed, _⟩
  · exact ⟨_, _, raw, ran, listed, read, keys⟩
  · cases unnamed

theorem purging_outdates_plan :
    ¬ ∀ (tree : Tree) (settings : Settings) (session final : Session) (loaded : Fields)
      (plan : List CascadeFile), settings.files = none →
      (planned tree settings).value session = .ok plan →
      cascade tree settings session = .ok loaded final →
      ∃ raw, rawEntries tree settings.encoding settings.overlay
          (FilePath.distinct (plan.map CascadeFile.path)) = .ok raw ∧
        ∀ key, key ∈ loaded.keys ↔ key ∈ raw.keys := by
  intro agree
  have result : (cascade namedTree (namedSettings none)).value namedSession =
      .ok [("APP_ENV", .str "production")] := by
    rw [value_cascade, cascaded_of_selected (purged_namedTree none).symm planned_purged_namedTree
      fun _ => by decide]
    exact resolvedEntries_namedTree
  have listed : (planned namedTree (namedSettings none)).value namedSession = .ok namedPlan := by
    rw [value_planned]
    exact congrArg Except.ok namedTree_reads.2.1
  have ran := Action.eq_ok_iff.mpr ⟨result, rfl⟩
  obtain ⟨raw, read, same⟩ := agree namedTree (namedSettings none) namedSession _ _ _ rfl listed ran
  cases rawEntries_namedPlan.symm.trans read
  exact absurd ((same "X").mpr (by decide)) (by decide)

end LayeredEnv.Loading
