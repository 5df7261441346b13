import LayeredEnv.Loading.Load
import LayeredEnv.Proofs.Loading.Commit

set_option autoImplicit false

namespace LayeredEnv.Loading

open Disk (FilePath Tree)

theorem value_reporting {α : Type} (settings : Settings) (action : Action α) (session : Session) :
    (reporting settings action).value session = action.value session := by
  rw [reporting, Action.value_tryCatch]
  cases action.value session with
  | ok value => rfl
  | error error =>
    simp only
    split <;> simp [Except.bind]

theorem vars_reporting {α : Type} (settings : Settings) (action : Action α) (session : Session) :
    ((reporting settings action).after session).vars = (action.after session).vars := by
  rw [reporting, Action.after_tryCatch]
  cases action.value session with
  | ok value => rfl
  | error error =>
    simp only
    split <;> simp

def purged (tree : Tree) (settings : Settings) (vars : Variables) : Staged :=
  let path := (settings.workingDirectory tree).join plainFile
  if settings.purge && tree.isFile path then
    match rawEntries tree settings.encoding settings.overlay [path] with
    | .ok entries => Staged.remove ⟨vars, []⟩ (loadedKeys entries vars)
    | .error _ => ⟨vars, []⟩
  else ⟨vars, []⟩

theorem purged_vars (tree : Tree) (settings : Settings) (vars : Variables) :
    (purged tree settings vars).vars = vars.eraseAll (purged tree settings vars).removals := by
  simp only [purged]
  split
  next => split <;> rfl
  next => rfl

theorem purged_of_unread {tree : Tree} {settings : Settings} {vars : Variables}
    (unread : settings.purge = true →
      tree.isFile ((settings.workingDirectory tree).join plainFile) = true →
      ∃ error, rawEntries tree settings.encoding settings.overlay
        [(settings.workingDirectory tree).join plainFile] = .error error) :
    purged tree settings vars = ⟨vars, []⟩ := by
  simp only [purged]
  split
  next asked =>
    rw [Bool.and_eq_true] at asked
    obtain ⟨error, failed⟩ := unread asked.1 asked.2
    rw [failed]
  next => rfl

theorem purged_of_read {tree : Tree} {settings : Settings} {vars : Variables} {entries : Fields}
    (asked : settings.purge = true)
    (present : tree.isFile ((settings.workingDirectory tree).join plainFile) = true)
    (read : rawEntries tree settings.encoding settings.overlay
      [(settings.workingDirectory tree).join plainFile] = .ok entries) :
    (purged tree settings vars).vars = vars.eraseAll (loadedKeys entries vars) := by
  simp only [purged, asked, present, Bool.and_self, if_true, read]
  rfl

theorem getElem?_purged {tree : Tree} {settings : Settings} {entries : Fields}
    (asked : settings.purge = true)
    (read : entriesOf tree settings.encoding ((settings.workingDirectory tree).join plainFile) =
      .ok entries) (vars : Variables) (key : String) :
    (purged tree settings vars).vars[key]? =
      if AsWritten entries vars key then none else vars[key]? := by
  have distinct := (entriesOf_raw read).distinct
  have present := isFile_of_entriesOf read
  rw [← rawEntries_singleton tree settings.encoding settings.overlay] at read
  rw [purged_of_read asked present read]
  exact getElem?_withoutLoaded distinct vars key

def staging (tree : Tree) (settings : Settings) (vars : Variables) : Action Staged :=
  if settings.purge then stagePurge tree settings ⟨vars, []⟩ else pure ⟨vars, []⟩

def plainStaged (tree : Tree) (settings : Settings) (vars : Variables) : Action Staged := do
  let path := (settings.workingDirectory tree).join plainFile
  let entries ← mergeFiles tree settings.encoding settings.overlay [path]
  return Staged.remove ⟨vars, []⟩ (loadedKeys entries vars)

theorem value_plainStaged (tree : Tree) (settings : Settings) (vars : Variables)
    (session : Session) :
    (plainStaged tree settings vars).value session =
      (rawEntries tree settings.encoding settings.overlay
        [(settings.workingDirectory tree).join plainFile]).map
          fun entries => Staged.remove ⟨vars, []⟩ (loadedKeys entries vars) := by
  rw [plainStaged, Action.value_bind, value_mergeFiles]
  rfl

theorem plainStaged_quiet (tree : Tree) (settings : Settings) (vars : Variables) :
    (plainStaged tree settings vars).Quiet :=
  (mergeFiles_quiet tree _ _ _).bind fun _ _ => rfl

theorem staging_of_asked (tree : Tree) (settings : Settings) (vars : Variables)
    (asked : (settings.purge && tree.isFile
      ((settings.workingDirectory tree).join plainFile)) = true) :
    staging tree settings vars = (do
      Action.note .purging
      tryCatch (plainStaged tree settings vars) fun error => do
        if !settings.silent then Action.note (.purgeFailed error)
        return ⟨vars, []⟩) := by
  obtain ⟨purge, present⟩ := Bool.and_eq_true_iff.mp asked
  simp [staging, stagePurge, plainStaged, purge, present]

theorem staging_of_unasked (tree : Tree) (settings : Settings) (vars : Variables)
    (unasked : ¬ (settings.purge && tree.isFile
      ((settings.workingDirectory tree).join plainFile)) = true) :
    staging tree settings vars = pure ⟨vars, []⟩ := by
  simp only [Bool.and_eq_true, not_and, Bool.not_eq_true] at unasked
  rw [staging]
  split
  next purge => simp [stagePurge, unasked purge]
  next => rfl

theorem value_staging (tree : Tree) (settings : Settings) (vars : Variables) (session : Session) :
    (staging tree settings vars).value session = .ok (purged tree settings vars) := by
  simp only [purged]
  split
  next asked =>
    rw [staging_of_asked tree settings vars asked]
    simp only [Action.value_bind, Action.value_note, Except.bind, Action.value_tryCatch,
      value_plainStaged]
    cases rawEntries tree settings.encoding settings.overlay
      [(settings.workingDirectory tree).join plainFile] with
    | ok entries => rfl
    | error error =>
      simp only [Except.map]
      split <;> simp [Except.map]
  next unasked => rw [staging_of_unasked tree settings vars unasked, Action.value_pure]

theorem staging_quiet (tree : Tree) (settings : Settings) (vars : Variables) :
    (staging tree settings vars).Quiet := by
  by_cases asked : (settings.purge && tree.isFile
    ((settings.workingDirectory tree).join plainFile)) = true
  next =>
    intro session
    have quiet := plainStaged_quiet tree settings vars
    rw [staging_of_asked tree settings vars asked]
    simp only [Action.after_bind, Action.value_note, Action.after_tryCatch]
    split
    next => simp [quiet _]
    next => split <;> simp [quiet _]
  next =>
    rw [staging_of_unasked tree settings vars asked]
    exact fun _ => rfl

def selection (tree : Tree) (settings : Settings) (vars : Variables) :
    Except LoadError (List FilePath) :=
  let directory := settings.workingDirectory tree
  match settings.files with
  | some files => .ok ((files.map directory.join).filter tree.isFile)
  | none =>
    let name := (environment settings vars).1
    let files := cascadeIn tree directory settings.effectivePattern name
    if files.isEmpty then
      .error (.noMatchingFiles (Naming.describe settings.effectivePattern name) directory)
    else .ok (files.map CascadeFile.path)

theorem value_select (tree : Tree) (settings : Settings) (vars : Variables) (session : Session) :
    (select tree settings vars).value session = selection tree settings vars := by
  simp only [select, selection]
  cases settings.files with
  | some files => simp [selectExplicit, Except.bind, Except.map]
  | none =>
    simp only [selectCascade, list, Action.value_bind, Action.value_note, Except.bind,
      Action.value_noteAll, Action.value_pure]
    split <;> simp [Except.map]

theorem select_quiet (tree : Tree) (settings : Settings) (vars : Variables) :
    (select tree settings vars).Quiet := by
  intro session
  simp only [select]
  cases settings.files with
  | some files => simp [selectExplicit]
  | none =>
    simp only [selectCascade, list, Action.after_bind, Action.value_bind, Action.value_note,
      Except.bind, Action.value_noteAll, Action.value_pure, Action.after_pure]
    split <;> simp

theorem value_planned (tree : Tree) (settings : Settings) (session : Session) :
    (planned tree settings).value session =
      .ok (cascadeIn tree (settings.workingDirectory tree) settings.effectivePattern
        (environment settings session.vars).1) := by
  simp [planned, selectCascade, list, Except.bind, Except.map]

theorem value_files (tree : Tree) (settings : Settings) (paths : List FilePath)
    (session : Session) :
    (files tree settings paths).value session =
      resolvedEntries tree settings session.vars (FilePath.distinct paths) := by
  simp [files, Except.bind, value_reporting, value_commit]

theorem vars_files (tree : Tree) (settings : Settings) (paths : List FilePath)
    (session : Session) :
    ((files tree settings paths).after session).vars =
      varsAfter settings.overlay ⟨session.vars, []⟩ session.vars
        (resolvedEntries tree settings session.vars (FilePath.distinct paths)) := by
  simp [files, vars_reporting, vars_commit]

theorem value_files_single {tree : Tree} {settings : Settings} {path : FilePath} {text : String}
    (read : textOf tree settings.encoding path = .ok text) (session : Session) :
    (files tree settings [path]).value session =
      (resolveEntries session.vars (EnvFile.read text).keys (EnvFile.read text)).mapError
        .cyclicReference := by
  rw [value_files, resolvedEntries_of_read (rawEntries_single settings.overlay read)]

theorem files_eq_ok {tree : Tree} {settings : Settings} {paths : List FilePath}
    {session final : Session} {loaded : Fields}
    (ran : files tree settings paths session = .ok loaded final) :
    ∃ raw, rawEntries tree settings.encoding settings.overlay (FilePath.distinct paths) = .ok raw ∧
      resolveEntries session.vars raw.keys raw = .ok loaded ∧
      ∀ key, final.vars[key]? = session.vars[key]?.or ((loaded.get? key).map Json.render) := by
  obtain ⟨result, rfl⟩ := Action.eq_ok_iff.mp ran
  rw [value_files] at result
  obtain ⟨raw, read, resolved⟩ := bind_eq_ok_iff.mp result
  refine ⟨raw, read, mapError_eq_ok_iff.mp resolved, fun key => ?_⟩
  rw [vars_files, result, varsAfter, getElem?_written]
  by_cases present : key ∈ session.vars
  next =>
    have held := Std.ExtTreeMap.getElem?_eq_some_getElem present
    simp [Variables.eraseAll, held]
  next => simp [Variables.eraseAll, present]

theorem files_defines {tree : Tree} {settings : Settings} {paths : List FilePath}
    {session final : Session} {raw loaded : Fields} {name : String}
    (ran : files tree settings paths session = .ok loaded final)
    (read : rawEntries tree settings.encoding settings.overlay (FilePath.distinct paths) = .ok raw)
    (defined : name ∈ raw.keys ∨ name ∈ session.vars) : ∃ text, final.vars[name]? = some text := by
  obtain ⟨entries, found, resolved, vars⟩ := files_eq_ok ran
  rw [read] at found
  cases found
  rw [vars]
  by_cases present : name ∈ session.vars
  next => simp [Std.ExtTreeMap.getElem?_eq_some_getElem present]
  next =>
    have member := defined.resolve_right present
    rw [← resolveEntries_keys (fun _ member => member) resolved, ← Fields.get?_isSome_iff] at member
    obtain ⟨value, held⟩ := Option.isSome_iff_exists.mp member
    simp [Std.ExtTreeMap.getElem?_eq_none present, held]

def cascaded (tree : Tree) (settings : Settings) (vars : Variables) : Except LoadError Fields :=
  let staged := purged tree settings vars
  (selection tree settings staged.vars).bind fun paths =>
    resolvedEntries tree settings staged.vars (FilePath.distinct paths)

theorem cascade_eq (tree : Tree) (settings : Settings) :
    cascade tree settings = reporting settings (do
      Action.note .initializing
      let staged ← staging tree settings (← Action.vars)
      let paths ← select tree settings staged.vars
      commit tree settings staged (FilePath.distinct paths)) := by
  simp only [cascade, staging]
  congr
  funext _
  congr
  funext vars
  split <;> rfl

theorem value_cascade (tree : Tree) (settings : Settings) (session : Session) :
    (cascade tree settings).value session = cascaded tree settings session.vars := by
  rw [cascade_eq, value_reporting]
  simp [cascaded, Except.bind, value_staging, value_select, value_commit]

theorem value_cascade_of_read {tree : Tree} {settings : Settings} {session : Session}
    {vars : Variables} {paths : List FilePath} {raw : Fields}
    (staged : (purged tree settings session.vars).vars = vars)
    (selected : selection tree settings vars = .ok paths)
    (read : rawEntries tree settings.encoding settings.overlay (FilePath.distinct paths) =
      .ok raw) :
    (cascade tree settings).value session =
      (resolveEntries vars raw.keys raw).mapError .cyclicReference := by
  rw [value_cascade, cascaded, staged, selected]
  exact resolvedEntries_of_read read vars

theorem value_cascade_of_unread {tree : Tree} {settings : Settings} {session : Session}
    {vars : Variables} {paths : List FilePath} {error : LoadError}
    (staged : (purged tree settings session.vars).vars = vars)
    (selected : selection tree settings vars = .ok paths)
    (unread : rawEntries tree settings.encoding settings.overlay (FilePath.distinct paths) =
      .error error) :
    (cascade tree settings).value session = .error error := by
  rw [value_cascade, cascaded, staged, selected]
  exact resolvedEntries_of_unread unread vars

theorem vars_cascade (tree : Tree) (settings : Settings) (session : Session) :
    ((cascade tree settings).after session).vars =
      varsAfter settings.overlay (purged tree settings session.vars) session.vars
        (cascaded tree settings session.vars) := by
  have selected := select_quiet tree settings (purged tree settings session.vars).vars
  have staged := staging_quiet tree settings session.vars
  rw [cascade_eq, vars_reporting]
  simp only [cascaded, Action.after_bind, Action.value_note, Action.value_vars, value_staging,
    value_select, Action.vars_note, Action.after_vars]
  cases selection tree settings (purged tree settings session.vars).vars with
  | error error => simp [Except.bind, varsAfter, selected _, staged _]
  | ok paths => simp [Except.bind, vars_commit, selected _, staged _]

theorem selection_of_planned {tree : Tree} {settings : Settings} {view : Session}
    {plan : List CascadeFile} (implicit : settings.files = none)
    (listed : (planned tree settings).value view = .ok plan) :
    selection tree settings view.vars =
      if plan.isEmpty then
        .error (.noMatchingFiles
          (Naming.describe settings.effectivePattern (environment settings view.vars).1)
          (settings.workingDirectory tree))
      else .ok (plan.map CascadeFile.path) := by
  rw [value_planned] at listed
  cases listed
  simp only [selection, implicit]

theorem resolvedEntries_of_planned {tree : Tree} {settings : Settings} {session final view : Session}
    {plan : List CascadeFile} {loaded : Fields} (implicit : settings.files = none)
    (staged : view.vars = (purged tree settings session.vars).vars)
    (listed : (planned tree settings).value view = .ok plan)
    (ran : cascade tree settings session = .ok loaded final) :
    resolvedEntries tree settings view.vars
      (FilePath.distinct (plan.map CascadeFile.path)) = .ok loaded := by
  obtain ⟨result, _⟩ := Action.eq_ok_iff.mp ran
  rw [value_cascade, cascaded] at result
  obtain ⟨paths, selected, resolved⟩ := bind_eq_ok_iff.mp result
  rw [← staged] at selected resolved
  rw [selection_of_planned implicit listed] at selected
  split at selected
  next => cases selected
  next =>
    cases selected
    exact resolved

theorem written_purged (overlay : Overlay) (tree : Tree) (settings : Settings) (vars : Variables)
    (resolved : Fields) :
    written overlay (purged tree settings vars) resolved vars =
      written overlay ⟨(purged tree settings vars).vars, []⟩ resolved
        (purged tree settings vars).vars := by
  simp only [written]
  rw [← purged_vars]
  rfl

theorem value_unload (tree : Tree) (settings : Settings) (paths : List FilePath)
    (session : Session) :
    (unload tree settings paths).value session =
      (rawEntries tree settings.encoding settings.overlay paths).map fun _ => () := by
  simp only [unload, Action.value_bind, value_reporting, value_mergeFiles, Action.value_vars]
  cases rawEntries tree settings.encoding settings.overlay paths with
  | error error => rfl
  | ok entries => simp [Except.bind, Except.map, (unsetAll_writes _ _).1]

theorem vars_unload (tree : Tree) (settings : Settings) (paths : List FilePath)
    (session : Session) :
    ((unload tree settings paths).after session).vars =
      match rawEntries tree settings.encoding settings.overlay paths with
      | .ok entries => session.vars.eraseAll (loadedKeys entries session.vars)
      | .error _ => session.vars := by
  have quiet := mergeFiles_quiet tree settings.encoding settings.overlay paths
  simp only [unload, Action.after_bind, value_reporting, value_mergeFiles, Action.value_vars]
  cases rawEntries tree settings.encoding settings.overlay paths with
  | error error => simp [vars_reporting, quiet _]
  | ok entries => simp [(unsetAll_writes _ _).2, vars_reporting, quiet _]

end LayeredEnv.Loading
