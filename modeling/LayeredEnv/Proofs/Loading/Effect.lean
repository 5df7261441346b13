import LayeredEnv.Proofs.Loading.Load

set_option autoImplicit false

namespace LayeredEnv.Loading

open Disk (FilePath Tree)

/-- What the entries of files have become, and the variables with them: the entries keep their order
and stay as they are where a variable shadows them, every variable of the base is kept, and what is
added to the base are the other entries. -/
structure Committed (base : Variables) (raw loaded : Fields) (final : Variables) : Prop where
  keys : loaded.keys = raw.keys
  shadowed : ∀ key ∈ raw.keys, key ∈ base →
    ∃ text, raw.get? key = some (.str text) ∧ loaded.get? key = some (.str text)
  kept : ∀ key ∈ base, final[key]? = base[key]?
  added : ∀ key ∉ base, final[key]? = (loaded.get? key).map Json.render

theorem written_committed {tree : Tree} {settings : Settings} (staged : Staged)
    {paths : List FilePath} {vars : Variables} {loaded : Fields}
    (base : staged.vars = vars.eraseAll staged.removals)
    (resolved : resolvedEntries tree settings staged.vars paths = .ok loaded) :
    ∃ raw, rawEntries tree settings.encoding settings.overlay paths = .ok raw ∧
      Committed staged.vars raw loaded (written settings.overlay staged loaded vars) := by
  obtain ⟨raw, read, resolved⟩ := bind_eq_ok_iff.mp resolved
  have entries := mapError_eq_ok_iff.mp resolved
  refine ⟨raw, read, resolveEntries_keys (fun _ member => member) entries, ?_, ?_, ?_⟩
  · intro key member shadowed
    obtain ⟨text, found⟩ := (rawEntries_raw read).text member
    exact ⟨text, found, (resolveEntries_get?_of_mem shadowed entries).trans found⟩
  · intro key member
    have held := Std.ExtTreeMap.getElem?_eq_some_getElem member
    rw [getElem?_written, ← base, held]
    rfl
  · intro key absent
    have missing := Std.ExtTreeMap.getElem?_eq_none absent
    rw [getElem?_written, ← base, missing, if_neg absent]
    rfl

/-- A load that succeeds commits the entries of its files exactly, on top of the variables that
purging leaves. -/
theorem load_commits_exactly (tree : Tree) (settings : Settings) (session final : Session)
    (loaded : Fields) :
    (∀ paths, files tree settings paths session = .ok loaded final →
      ∃ raw,
        rawEntries tree settings.encoding settings.overlay (FilePath.distinct paths) = .ok raw ∧
        Committed session.vars raw loaded final.vars) ∧
    (cascade tree settings session = .ok loaded final →
      ∃ paths raw, selection tree settings (purged tree settings session.vars).vars = .ok paths ∧
        rawEntries tree settings.encoding settings.overlay (FilePath.distinct paths) = .ok raw ∧
        Committed (purged tree settings session.vars).vars raw loaded final.vars) ∧
    ((settings.purge = true →
      tree.isFile ((settings.workingDirectory tree).join plainFile) = true →
      ∃ error, rawEntries tree settings.encoding settings.overlay
        [(settings.workingDirectory tree).join plainFile] = .error error) →
      (purged tree settings session.vars).vars = session.vars) ∧
    (∀ entries, settings.purge = true →
      tree.isFile ((settings.workingDirectory tree).join plainFile) = true →
      rawEntries tree settings.encoding settings.overlay
        [(settings.workingDirectory tree).join plainFile] = .ok entries →
      (purged tree settings session.vars).vars =
        session.vars.eraseAll (loadedKeys entries session.vars)) := by
  refine ⟨?_, ?_, fun unread => by rw [purged_of_unread unread],
    fun entries asked present read => purged_of_read asked present read⟩
  · intro paths ran
    obtain ⟨result, rfl⟩ := Action.eq_ok_iff.mp ran
    rw [value_files] at result
    rw [vars_files, result]
    have base : session.vars = session.vars.eraseAll [] := rfl
    exact written_committed ⟨session.vars, []⟩ base result
  · intro ran
    obtain ⟨result, rfl⟩ := Action.eq_ok_iff.mp ran
    rw [value_cascade] at result
    rw [vars_cascade, result]
    obtain ⟨paths, selected, resolved⟩ := bind_eq_ok_iff.mp result
    obtain ⟨raw, read, committed⟩ :=
      written_committed _ (purged_vars tree settings session.vars) resolved
    exact ⟨paths, raw, selected, read, committed⟩

def layeredTree : Tree where
  nodes := [(["w"], .directory), (["w", ".env"], .file "A=old\nB=1\n".toUTF8.toList),
    (["w", ".env.local"], .file "B=2\nA=new\nC=keep\n".toUTF8.toList)]
  current := ⟨"/w"⟩

def layeredSession : Session where
  vars := Variables.ofList [("A", "old"), ("C", "shell"), ("Z", "z")]
  notices := []

theorem layeredTree_reads :
    (purged layeredTree { purge := true } layeredSession.vars).vars =
      Variables.ofList [("C", "shell"), ("Z", "z")] ∧
    selection layeredTree { purge := true } (Variables.ofList [("C", "shell"), ("Z", "z")]) =
      .ok [⟨"/w/.env"⟩, ⟨"/w/.env.local"⟩] ∧
    rawEntries layeredTree none Overlay.default (FilePath.distinct [⟨"/w/.env"⟩]) =
      .ok [("A", .str "old"), ("B", .str "1")] ∧
    rawEntries layeredTree none Overlay.default
      (FilePath.distinct [⟨"/w/.env"⟩, ⟨"/w/.env.local"⟩]) =
        .ok [("A", .str "new"), ("B", .str "2"), ("C", .str "keep")] ∧
    Value.typed "1" = .num (.int 1) ∧ Value.typed "2" = .num (.int 2) := by
  decide +kernel

theorem value_cascade_layeredTree :
    (cascade layeredTree { purge := true }).value layeredSession =
      .ok [("A", .str "new"), ("B", .num (.int 2)), ("C", .str "keep")] := by
  obtain ⟨staged, selected, _, read, _, number⟩ := layeredTree_reads
  rw [value_cascade_of_read staged selected read]
  simp only [Fields.keys, List.map_cons, List.map_nil]
  rw [resolveEntries_of_plain "new" (by decide) (rawText_of_field rfl) (by decide),
    resolveEntries_of_plain "2" (by decide) (rawText_of_field rfl) (by decide),
    resolveEntries_of_mem (by decide), number]
  rfl

theorem value_files_layeredTree :
    (files layeredTree {} [⟨"/w/.env"⟩]).value layeredSession =
      .ok [("A", .str "old"), ("B", .num (.int 1))] := by
  obtain ⟨_, _, read, _, number, _⟩ := layeredTree_reads
  rw [value_files, resolvedEntries_of_read read]
  simp only [Fields.keys, List.map_cons, List.map_nil]
  rw [resolveEntries_of_mem (by decide),
    resolveEntries_of_plain "1" (by decide) (rawText_of_field rfl) (by decide), number]
  rfl

theorem layered_loads_commit :
    (∃ final raw,
      files layeredTree {} [⟨"/w/.env"⟩] layeredSession =
        .ok [("A", .str "old"), ("B", .num (.int 1))] final ∧
      Committed layeredSession.vars raw [("A", .str "old"), ("B", .num (.int 1))] final.vars) ∧
    (∃ final raw,
      cascade layeredTree { purge := true } layeredSession =
        .ok [("A", .str "new"), ("B", .num (.int 2)), ("C", .str "keep")] final ∧
      Committed (purged layeredTree { purge := true } layeredSession.vars).vars raw
        [("A", .str "new"), ("B", .num (.int 2)), ("C", .str "keep")] final.vars) ∧
    (purged layeredTree {} layeredSession.vars).vars = layeredSession.vars ∧
    (purged layeredTree { purge := true } layeredSession.vars).vars =
      layeredSession.vars.eraseAll ["A"] := by
  refine ⟨?_, ?_, ?_, ?_⟩
  · have ran := Action.eq_ok_iff.mpr ⟨value_files_layeredTree, rfl⟩
    obtain ⟨raw, _, committed⟩ := (load_commits_exactly _ _ _ _ _).1 _ ran
    exact ⟨_, raw, ran, committed⟩
  · have ran := Action.eq_ok_iff.mpr ⟨value_cascade_layeredTree, rfl⟩
    obtain ⟨_, raw, _, _, committed⟩ := (load_commits_exactly _ _ _ _ _).2.1 ran
    exact ⟨_, raw, ran, committed⟩
  · exact (load_commits_exactly layeredTree {} layeredSession layeredSession []).2.2.1
      fun asked => by cases asked
  · exact (load_commits_exactly layeredTree { purge := true } layeredSession layeredSession
      []).2.2.2 [("A", .str "old"), ("B", .str "1")] rfl (by decide +kernel) (by decide +kernel)

theorem failure_keeps_vars (tree : Tree) (settings : Settings) (session final : Session)
    (error : LoadError) :
    (cascade tree settings session = .error error final → final.vars = session.vars) ∧
    (∀ paths, files tree settings paths session = .error error final →
      final.vars = session.vars) ∧
    (∀ paths, unload tree settings paths session = .error error final →
      final.vars = session.vars) := by
  refine ⟨?_, ?_, ?_⟩
  · intro ran
    obtain ⟨failed, rfl⟩ := Action.eq_error_iff.mp ran
    rw [value_cascade] at failed
    rw [vars_cascade, failed]
    rfl
  · intro paths ran
    obtain ⟨failed, rfl⟩ := Action.eq_error_iff.mp ran
    rw [value_files] at failed
    rw [vars_files, failed]
    rfl
  · intro paths ran
    obtain ⟨failed, rfl⟩ := Action.eq_error_iff.mp ran
    rw [value_unload] at failed
    rw [vars_unload]
    cases read : rawEntries tree settings.encoding settings.overlay paths with
    | error error => rfl
    | ok entries => simp [read, Except.map] at failed

def tangledTree : Tree where
  nodes := [(["w"], .directory), (["w", ".env"], .file "C=base\nA=${B}\nB=${A}\n".toUTF8.toList)]
  current := ⟨"/w"⟩

def tangledSession : Session := ⟨Variables.ofList [("C", "base"), ("Z", "z")], []⟩

def tangledScope : Value.Scope where
  vars := Variables.ofList [("Z", "z")]
  fields := [("C", .str "base"), ("A", .str "${B}"), ("B", .str "${A}")]

theorem resolve_tangledScope :
    Value.resolve tangledScope "A" "${B}" = .error ["A", "B", "A"] := by
  have outer : Value.Piece.next? "${B}".toList = some (.reference ⟨"B", []⟩, []) := rfl
  have inner : Value.Piece.next? "${A}".toList = some (.reference ⟨"A", []⟩, []) := rfl
  have within : tangledScope.demand "${B}".toList ⟨"B", []⟩ = .site ⟨"B", "${A}".toList⟩ := by
    decide
  have back : tangledScope.demand "${A}".toList ⟨"A", []⟩ = .site ⟨"A", "${B}".toList⟩ := by
    decide
  rw [Value.resolve, Value.expand, Value.expandRest_site outer within, if_pos (by decide),
    Value.expandRest_site inner back, if_neg (by decide)]
  rfl

theorem tangledTree_reads :
    (purged tangledTree { purge := true } tangledSession.vars).vars = tangledScope.vars ∧
    selection tangledTree { purge := true } tangledScope.vars = .ok [⟨"/w/.env"⟩] ∧
    rawEntries tangledTree none Overlay.default (FilePath.distinct [⟨"/w/.env"⟩]) =
      .ok tangledScope.fields ∧
    rawEntries tangledTree none Overlay.default [⟨"/w/.env"⟩, ⟨"/w/gone"⟩] =
      .error (.unreadable ⟨"/w/gone"⟩ .missing) := by
  decide +kernel

theorem value_cascade_tangledTree :
    (cascade tangledTree { purge := true }).value tangledSession =
      .error (.cyclicReference ["A", "B", "A"]) := by
  obtain ⟨staged, selected, read, _⟩ := tangledTree_reads
  have unchanged : tangledScope.fields.set "C" (Value.typed "base") = tangledScope.fields := rfl
  have entries : resolveEntries tangledScope.vars ["C", "A", "B"] tangledScope.fields =
      .error ["A", "B", "A"] := by
    rw [resolveEntries_of_plain "base" (by decide) (rawText_of_field rfl) (by decide), unchanged,
      resolveEntries_of_not_mem (by decide)]
    have raw : rawText tangledScope.fields "A" = "${B}" := rfl
    rw [raw, resolve_tangledScope]
    rfl
  rw [value_cascade_of_read staged selected read]
  exact congrArg (Except.mapError LoadError.cyclicReference) entries

theorem rawEntries_tangledTree :
    rawEntries tangledTree none Overlay.default [⟨"/w/.env"⟩, ⟨"/w/gone"⟩] =
      .error (.unreadable ⟨"/w/gone"⟩ .missing) :=
  tangledTree_reads.2.2.2

def lockedTree : Tree where
  nodes := [(["w"], .directory), (["w", ".env"], .file "C=base\n".toUTF8.toList),
    (["w", ".env.local"], .lockedFile .denied)]
  current := ⟨"/w"⟩

theorem value_cascade_lockedTree :
    (cascade lockedTree { purge := true }).value tangledSession =
      .error (.unreadable ⟨"/w/.env.local"⟩ (.refused .denied)) := by
  have staged : (purged lockedTree { purge := true } tangledSession.vars).vars =
      tangledScope.vars := by decide +kernel
  have selected : selection lockedTree { purge := true } tangledScope.vars =
      .ok [⟨"/w/.env"⟩, ⟨"/w/.env.local"⟩] := by decide +kernel
  exact value_cascade_of_unread staged selected (by decide +kernel)

theorem failed_loads_keep_vars :
    (∃ final,
      cascade tangledTree { purge := true } tangledSession =
        .error (.cyclicReference ["A", "B", "A"]) final ∧ final.vars = tangledSession.vars) ∧
    (∃ final,
      cascade lockedTree { purge := true } tangledSession =
        .error (.unreadable ⟨"/w/.env.local"⟩ (.refused .denied)) final ∧
      final.vars = tangledSession.vars) ∧
    (∃ final,
      files tangledTree {} [⟨"/w/.env"⟩, ⟨"/w/gone"⟩] tangledSession =
        .error (.unreadable ⟨"/w/gone"⟩ .missing) final ∧ final.vars = tangledSession.vars) ∧
    (∃ final,
      unload tangledTree {} [⟨"/w/.env"⟩, ⟨"/w/gone"⟩] tangledSession =
        .error (.unreadable ⟨"/w/gone"⟩ .missing) final ∧ final.vars = tangledSession.vars) := by
  refine ⟨?_, ?_, ?_, ?_⟩
  · have ran := Action.eq_error_iff.mpr ⟨value_cascade_tangledTree, rfl⟩
    exact ⟨_, ran, (failure_keeps_vars _ _ _ _ _).1 ran⟩
  · have ran := Action.eq_error_iff.mpr ⟨value_cascade_lockedTree, rfl⟩
    exact ⟨_, ran, (failure_keeps_vars _ _ _ _ _).1 ran⟩
  · have apart : FilePath.distinct [⟨"/w/.env"⟩, ⟨"/w/gone"⟩] = [⟨"/w/.env"⟩, ⟨"/w/gone"⟩] := by
      decide +kernel
    have failed : (files tangledTree {} [⟨"/w/.env"⟩, ⟨"/w/gone"⟩]).value tangledSession =
        .error (.unreadable ⟨"/w/gone"⟩ .missing) := by
      rw [value_files, apart, resolvedEntries_of_unread rawEntries_tangledTree]
    have ran := Action.eq_error_iff.mpr ⟨failed, rfl⟩
    exact ⟨_, ran, (failure_keeps_vars _ _ _ _ _).2.1 _ ran⟩
  · have failed : (unload tangledTree {} [⟨"/w/.env"⟩, ⟨"/w/gone"⟩]).value tangledSession =
        .error (.unreadable ⟨"/w/gone"⟩ .missing) := by
      rw [value_unload, rawEntries_tangledTree]
      rfl
    have ran := Action.eq_error_iff.mpr ⟨failed, rfl⟩
    exact ⟨_, ran, (failure_keeps_vars _ _ _ _ _).2.2 _ ran⟩

end LayeredEnv.Loading
