import LayeredEnv.Proofs.Loading.Load
import LayeredEnv.Proofs.Notices

set_option autoImplicit false

namespace LayeredEnv.Loading

open Disk (FilePath Tree)
open LayeredEnv.Action (Muted)

theorem addFile_calm (tree : Tree) (encoding : Option String) (overlay : Overlay)
    (merged : Fields) (path : FilePath) : (addFile tree encoding overlay merged path).Calm :=
  (Action.Calm.note rfl).bind fun _ =>
    (Action.Calm.ofExcept _).bind fun _ =>
      (Action.Calm.noteEach (fun _ => rfl) _).bind fun _ => .pure _

theorem mergeFiles_calm (tree : Tree) (encoding : Option String) (overlay : Overlay)
    (paths : List FilePath) : (mergeFiles tree encoding overlay paths).Calm :=
  .foldlM (addFile_calm tree encoding overlay) paths []

theorem resolveKeys_calm (vars : Variables) (keys : List String) (entries : Fields) :
    (resolveKeys vars keys entries).Calm := by
  induction keys generalizing entries with
  | nil => exact .pure entries
  | cons key rest ih =>
    rw [resolveKeys]
    cases vars[key]? with
    | some current =>
      simp only
      split
      next => exact (Action.Calm.note rfl).bind fun _ => ih entries
      next => exact ih entries
    | none =>
      simp only
      split
      next => exact ih _
      next => exact .throw _

theorem unsetAll_calm (keys : List String) : (unsetAll keys).Calm :=
  .forM (fun key => (Action.Calm.note rfl).bind fun _ => .unset key) keys

theorem assignNew_calm (staged : Variables) (entry : String × Json) :
    (assignNew staged entry).Calm := by
  refine Action.Calm.read.bind fun vars => ?_
  split
  next => exact .pure _
  next => exact .assign _ _

theorem commit_calm (tree : Tree) (settings : Settings) (staged : Staged)
    (paths : List FilePath) : (commit tree settings staged paths).Calm :=
  (Action.Calm.note rfl).bind fun _ =>
    (mergeFiles_calm tree _ _ paths).bind fun entries =>
      (resolveKeys_calm _ _ entries).bind fun resolved =>
        (unsetAll_calm _).bind fun _ =>
          (Action.Calm.forM (assignNew_calm _) _).bind fun _ => .pure resolved

theorem environment_plain (settings : Settings) (vars : Variables) :
    (environment settings vars).2.isWarning = false := by
  rw [environment]
  repeat' split
  all_goals rfl

theorem selectCascade_calm (tree : Tree) (settings : Settings) (vars : Variables) :
    (selectCascade tree settings vars).Calm :=
  (Action.Calm.note (environment_plain settings vars)).bind fun _ =>
    ((Action.Calm.note rfl).bind fun _ => (Action.Calm.noteEach (fun _ => rfl) _).bind fun _ =>
      (Action.Calm.noteEach (fun _ => rfl) _).bind fun _ => .pure _).bind fun _ => .pure _

theorem select_calm (tree : Tree) (settings : Settings) (vars : Variables) :
    (select tree settings vars).Calm := by
  rw [select]
  cases settings.files with
  | some files =>
    exact (Action.Calm.note rfl).bind fun _ =>
      (Action.Calm.noteEach (fun _ => rfl) _).bind fun _ => .pure _
  | none =>
    refine (selectCascade_calm tree settings vars).bind fun planned => ?_
    simp only
    split
    next => exact (Action.Calm.throw _).bind fun _ => .pure _
    next => exact .pure _

def failureWarnings {α : Type} : Except LoadError α → List Notice
  | .ok _ => []
  | .error error => [.failed error]

def purgeWarnings (tree : Tree) (settings : Settings) : List Notice :=
  let path := (settings.workingDirectory tree).join plainFile
  if settings.purge && tree.isFile path then
    match entriesOf tree settings.encoding path with
    | .ok _ => []
    | .error error => [.purgeFailed error]
  else []

theorem reporting_muted {α : Type} (settings : Settings) {loud muted : Action α}
    {vars final : Variables} {outcome : Except LoadError α} {early : List Notice}
    (body : Muted loud muted vars outcome final early) :
    Muted (reporting { settings with silent := false } loud)
      (reporting { settings with silent := true } muted) vars outcome final
      (early ++ failureWarnings outcome) := by
  cases outcome with
  | ok value =>
    rw [failureWarnings, List.append_nil]
    exact body.tryCatch_ok
  | error error => exact body.tryCatch_error (.warning rfl (.throw error final))

theorem plainStaged_calm (tree : Tree) (settings : Settings) (vars : Variables) :
    (plainStaged tree settings vars).Calm :=
  (mergeFiles_calm tree _ _ _).bind fun _ => .pure _

theorem staging_muted (tree : Tree) (settings : Settings) (base vars : Variables) :
    ∃ outcome final, Muted (staging tree { settings with silent := false } base)
      (staging tree { settings with silent := true } base) vars outcome final
      (purgeWarnings tree settings) := by
  simp only [purgeWarnings]
  split
  next asked =>
    rw [staging_of_asked tree { settings with silent := false } base asked,
      staging_of_asked tree { settings with silent := true } base asked]
    obtain ⟨outcome, final, attempt⟩ := plainStaged_calm tree settings base vars
    have result := (attempt.value []).symm.trans (value_plainStaged tree settings base _)
    rw [rawEntries_singleton] at result
    have noted := Muted.note .purging rfl vars
    cases read : entriesOf tree settings.encoding
      ((settings.workingDirectory tree).join plainFile) with
    | ok entries =>
      rw [read] at result
      subst result
      exact ⟨_, _, noted.bind_ok attempt.tryCatch_ok⟩
    | error error =>
      -- The load goes on with nothing staged.
      rw [read] at result
      subst result
      exact ⟨_, _, noted.bind_ok (attempt.tryCatch_error (.warning rfl (.pure _ final)))⟩
  next unasked =>
    rw [staging_of_unasked tree { settings with silent := false } base unasked,
      staging_of_unasked tree { settings with silent := true } base unasked]
    exact Action.Calm.pure _ vars

/-- The setting that mutes warnings does nothing else. A silent run comes to the same result and the
same variables as a loud one and notes the same except the warnings. These are one about purging, if
there is a plain file that cannot be read, and behind it one about the run itself, if it fails. -/
theorem silence_only_mutes (tree : Tree) (settings : Settings) (vars : Variables)
    (paths : List FilePath) :
    (∃ outcome final, Muted (cascade tree { settings with silent := false })
      (cascade tree { settings with silent := true }) vars outcome final
      (purgeWarnings tree settings ++ failureWarnings outcome)) ∧
    (∃ outcome final, Muted (files tree { settings with silent := false } paths)
      (files tree { settings with silent := true } paths) vars outcome final
      (failureWarnings outcome)) ∧
    (∃ outcome final, Muted (unload tree { settings with silent := false } paths)
      (unload tree { settings with silent := true } paths) vars outcome final
      (failureWarnings outcome)) := by
  have read := (Action.Runs.read vars).muted (by simp)
  refine ⟨?_, ?_, ?_⟩
  · -- Only purging and the report look at the setting; what stands between them is one action.
    rw [cascade_eq tree { settings with silent := false },
      cascade_eq tree { settings with silent := true }]
    have noted := Muted.note .initializing rfl vars
    obtain ⟨_, _, staged⟩ := staging_muted tree settings vars vars
    obtain ⟨outcome, final, body⟩ := staged.bind_calm fun staged =>
      (select_calm tree settings staged.vars).bind fun paths =>
        commit_calm tree settings staged (FilePath.distinct paths)
    exact ⟨outcome, final, reporting_muted settings (noted.bind_ok (read.bind_ok body))⟩
  · obtain ⟨outcome, final, body⟩ :=
      commit_calm tree settings ⟨vars, []⟩ (FilePath.distinct paths) vars
    exact ⟨outcome, final, read.bind_ok (reporting_muted settings body)⟩
  · obtain ⟨outcome, final, body⟩ :=
      mergeFiles_calm tree settings.encoding settings.overlay paths vars
    have reported := reporting_muted settings body
    cases outcome with
    | error error => exact ⟨_, _, reported.bind_error⟩
    | ok entries =>
      obtain ⟨outcome, final, unset⟩ :=
        (Action.Calm.read.bind fun vars => unsetAll_calm (loadedKeys entries vars)) final
      have succeeds := unset.value []
      rw [Action.value_bind, Action.value_vars] at succeeds
      cases succeeds.symm.trans (unsetAll_writes _ _).1
      exact ⟨_, _, reported.bind_ok unset⟩

-- A plain file that cannot be decoded is read twice and warned about twice.
example :
    ((cascade ⟨[(["w"], .directory), (["w", ".env"], .file [0x58, 0x3d, 0xff])], ⟨"/w"⟩⟩
      { purge := true }).after ⟨∅, []⟩).notices.filter Notice.isWarning =
        [.purgeFailed (.undecodable ⟨"/w/.env"⟩ "utf-8"),
          .failed (.undecodable ⟨"/w/.env"⟩ "utf-8")] := by decide +kernel

end LayeredEnv.Loading
