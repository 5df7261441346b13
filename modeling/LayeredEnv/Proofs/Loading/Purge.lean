import LayeredEnv.Proofs.Loading.Load

set_option autoImplicit false

namespace LayeredEnv.Loading

open Disk (FilePath Tree)

/-- The action has one result in both sessions, and if it succeeds it leaves the same variables. -/
def Agree {α : Type} (action : Action α) (one two : Session) : Prop :=
  action.value one = action.value two ∧
    ∀ value, action.value one = .ok value → (action.after one).vars = (action.after two).vars

theorem cascade_agree {tree : Tree} {settings : Settings} {one two : Session}
    (same : (purged tree settings one.vars).vars = (purged tree settings two.vars).vars) :
    Agree (cascade tree settings) one two := by
  -- Both the result and what is written depend only on what purging leaves of the variables.
  have result : cascaded tree settings one.vars = cascaded tree settings two.vars := by
    simp only [cascaded, same]
  refine ⟨by rw [value_cascade, value_cascade, result], fun loaded succeeded => ?_⟩
  rw [value_cascade] at succeeded
  rw [vars_cascade, vars_cascade, ← result, succeeded, varsAfter, varsAfter, written_purged,
    written_purged, same]

section

variable {tree : Tree} {settings : Settings} {entries : Fields}

theorem purged_purged (asked : settings.purge = true)
    (read : entriesOf tree settings.encoding ((settings.workingDirectory tree).join plainFile) =
      .ok entries) (vars : Variables) :
    (purged tree settings (purged tree settings vars).vars).vars =
      (purged tree settings vars).vars := by
  have distinct := (entriesOf_raw read).distinct
  have present := isFile_of_entriesOf read
  rw [← rawEntries_singleton tree settings.encoding settings.overlay] at read
  simp only [purged_of_read asked present read]
  exact withoutLoaded_idem distinct vars

theorem purged_of_fresh (asked : settings.purge = true)
    (read : entriesOf tree settings.encoding ((settings.workingDirectory tree).join plainFile) =
      .ok entries) {vars : Variables} (fresh : ∀ key ∈ entries.keys, key ∉ vars) :
    (purged tree settings vars).vars = vars := by
  apply Std.ExtTreeMap.ext_getElem?
  intro key
  rw [getElem?_purged asked read]
  split
  next written =>
    by_cases member : key ∈ entries.keys
    next => exact (Std.ExtTreeMap.getElem?_eq_none (fresh key member)).symm
    next => exact ((asWritten_of_not_mem member vars).mp written).symm
  next => rfl

theorem files_keeps {path : FilePath} {session after : Session} {loaded : Fields}
    (read : entriesOf tree settings.encoding path = .ok entries)
    (ran : files tree settings [path] session = .ok loaded after) {key : String}
    (outside : key ∉ entries.keys) : after.vars[key]? = session.vars[key]? := by
  obtain ⟨raw, merged, resolved, vars⟩ := files_eq_ok ran
  rw [rawEntries_distinct_singleton, read] at merged
  cases merged
  rw [← resolveEntries_keys (fun _ member => member) resolved, ← Fields.get?_isSome_iff,
    Option.not_isSome_iff_eq_none] at outside
  rw [vars, outside, Option.map_none, Option.or_none]

theorem cascade_none (tree : Tree) (settings : Settings) (session : Session) :
    (cascade tree { settings with files := some [] }).value session = .ok [] ∧
      ((cascade tree { settings with files := some [] }).after session).vars =
        (purged tree settings session.vars).vars := by
  -- With no file to load, a cascade succeeds and only purges.
  have nothing : cascaded tree { settings with files := some [] } session.vars = .ok [] := rfl
  refine ⟨by rw [value_cascade, nothing], ?_⟩
  have staged : purged tree { settings with files := some [] } session.vars =
      purged tree settings session.vars := rfl
  rw [vars_cascade, nothing, varsAfter, written_purged, staged]
  apply Std.ExtTreeMap.ext_getElem?
  intro key
  rw [getElem?_written]
  simp [Variables.eraseAll, Fields.get?]

theorem getElem?_purged_load {session after : Session} {loaded : Fields} {path : FilePath}
    (asked : settings.purge = true)
    (read : entriesOf tree settings.encoding ((settings.workingDirectory tree).join plainFile) =
      .ok entries)
    (plain : tree.content path =
      tree.content ((settings.workingDirectory tree).join plainFile))
    (ran : files tree settings [path] session = .ok loaded after) (key : String) :
    (purged tree settings after.vars).vars[key]? =
      if key ∈ entries.keys then
        if AsWritten entries after.vars key then none else after.vars[key]?
      else session.vars[key]? := by
  rw [getElem?_purged asked read]
  by_cases member : key ∈ entries.keys
  next => rw [if_pos member]
  next =>
    have kept := files_keeps (entriesOf_of_content rfl plain.symm read) ran member
    rw [if_neg member, ← kept]
    split
    next written => exact ((asWritten_of_not_mem member after.vars).mp written).symm
    next => rfl

/-- A cascade that purges runs after a load of the plain file as it runs on the variables before the
load and those that the load has left with another text than the file has. So the load is taken back
if every variable is as written, and only then whatever files the cascade is given. -/
theorem purge_reverts_as_written (tree : Tree) (settings : Settings) (path : FilePath)
    (session after : Session) (entries loaded : Fields) (asked : settings.purge = true)
    (read : entriesOf tree settings.encoding ((settings.workingDirectory tree).join plainFile) =
      .ok entries)
    (plain : tree.content path =
      tree.content ((settings.workingDirectory tree).join plainFile))
    (fresh : ∀ key ∈ entries.keys, key ∉ session.vars)
    (ran : files tree settings [path] session = .ok loaded after) :
    (∃ rest : Session, Agree (cascade tree settings) after rest ∧
      ∀ key, rest.vars[key]? =
        if key ∈ entries.keys then
          if AsWritten entries after.vars key then none else after.vars[key]?
        else session.vars[key]?) ∧
    ((∀ key ∈ entries.keys, AsWritten entries after.vars key) →
      Agree (cascade tree settings) after session) ∧
    ((∃ key ∈ entries.keys, ¬ AsWritten entries after.vars key) →
      ¬ Agree (cascade tree { settings with files := some [] }) after session) := by
  have before := purged_of_fresh asked read fresh
  have left := getElem?_purged_load asked read plain ran
  refine ⟨⟨⟨(purged tree settings after.vars).vars, []⟩,
    cascade_agree (purged_purged asked read after.vars).symm, left⟩, ?_, ?_⟩
  · intro written
    refine cascade_agree ?_
    rw [before]
    apply Std.ExtTreeMap.ext_getElem?
    intro key
    rw [left]
    split
    next member =>
      rw [if_pos (written key member), Std.ExtTreeMap.getElem?_eq_none (fresh key member)]
    next => rfl
  · rintro ⟨key, member, respelled⟩ ⟨_, same⟩
    have absent := Std.ExtTreeMap.getElem?_eq_none (fresh key member)
    have loads := (rawEntries_distinct_singleton tree settings.encoding settings.overlay path).trans
      (entriesOf_of_content rfl plain.symm read)
    obtain ⟨text, stored⟩ := files_defines ran loads (.inl member)
    have vars := same [] (cascade_none tree settings after).1
    rw [(cascade_none tree settings after).2, (cascade_none tree settings session).2, before]
      at vars
    have here := left key
    rw [vars, absent, if_pos member, if_neg respelled, stored] at here
    cases here

end

def plainTree (text : String) : Tree where
  nodes := [(["w"], .directory), (["w", ".env"], .file text.toUTF8.toList),
    (["w", ".env.production"], .file "A=prod\n".toUTF8.toList)]
  current := ⟨"/w"⟩

def plainSettings : Settings := { purge := true, environment := some "production" }

theorem plainTree_reads :
    Naming.candidates Naming.defaultPattern (some "production") =
      [(.defaults, ".env.defaults"), (.base, ".env"), (.localOverride, ".env.local"),
        (.environment, ".env.production"), (.environmentLocal, ".env.production.local")] ∧
    entriesOf (plainTree "A=base\n") none ⟨"/w/.env"⟩ = .ok [("A", .str "base")] ∧
    entriesOf (plainTree "A=1.0\n") none ⟨"/w/.env"⟩ = .ok [("A", .str "1.0")] ∧
    entriesOf (plainTree "A=1.0\n") none ⟨"/w/.env.production"⟩ = .ok [("A", .str "prod")] ∧
    (Value.typed "1.0").render = "1" := by
  decide +kernel

variable {text raw : String}

theorem files_plainTree
    (read : entriesOf (plainTree text) none ⟨"/w/.env"⟩ = .ok [("A", .str raw)])
    (plain : '$' ∉ raw.toList) :
    ∃ after,
      files (plainTree text) plainSettings [⟨"/w/.env"⟩] ⟨∅, []⟩ =
        .ok [("A", Value.typed raw)] after ∧
      after.vars["A"]? = some (Value.typed raw).render := by
  have result : (files (plainTree text) plainSettings [⟨"/w/.env"⟩]).value ⟨∅, []⟩ =
      .ok [("A", Value.typed raw)] := by
    have merged := (rawEntries_distinct_singleton _ _ Overlay.default _).trans read
    rw [value_files, resolvedEntries_of_read merged]
    simp only [Fields.keys, List.map_cons, List.map_nil]
    rw [resolveEntries_of_plain raw (by simp) (rawText_of_field rfl) plain]
    rfl
  have ran := Action.eq_ok_iff.mpr ⟨result, rfl⟩
  obtain ⟨_, _, _, vars⟩ := files_eq_ok ran
  exact ⟨_, ran, (vars "A").trans rfl⟩

theorem selection_plainTree (text : String) (vars : Variables) :
    selection (plainTree text) plainSettings vars =
      .ok [⟨"/w/.env"⟩, ⟨"/w/.env.production"⟩] := by
  have pattern : plainSettings.effectivePattern = Naming.defaultPattern := rfl
  have name : (environment plainSettings vars).1 = some "production" := rfl
  have directory : plainSettings.workingDirectory (plainTree text) = ⟨"/w"⟩ := rfl
  have implicit : plainSettings.files = none := rfl
  simp only [selection, implicit, name, directory, cascadeIn, pattern, plainTree_reads.1]
  rfl

theorem value_cascade_plainTree
    (read : entriesOf (plainTree text) none ⟨"/w/.env"⟩ = .ok [("A", .str raw)])
    (session : Session) :
    (cascade (plainTree text) plainSettings).value session = .ok [("A", .str "prod")] := by
  have apart : FilePath.distinct [⟨"/w/.env"⟩, ⟨"/w/.env.production"⟩] =
      [⟨"/w/.env"⟩, ⟨"/w/.env.production"⟩] := by decide
  have upper : entriesOf (plainTree text) none ⟨"/w/.env.production"⟩ =
      .ok [("A", .str "prod")] :=
    entriesOf_of_content rfl rfl plainTree_reads.2.2.2.1
  have merged : rawEntries (plainTree text) none Overlay.default
      [⟨"/w/.env"⟩, ⟨"/w/.env.production"⟩] = .ok [("A", .str "prod")] := by
    simp only [rawEntries, List.foldlM_cons, read, upper]
    rfl
  rw [value_cascade_of_read rfl (selection_plainTree text _) (apart ▸ merged)]
  -- A text that is typed as itself comes out the same whether it is resolved or kept raw.
  generalize (purged (plainTree text) plainSettings session.vars).vars = rest
  simp only [Fields.keys, List.map_cons, List.map_nil]
  by_cases shadowed : "A" ∈ rest
  next =>
    rw [resolveEntries_of_mem shadowed]
    rfl
  next =>
    rw [resolveEntries_of_plain "prod" shadowed (rawText_of_field rfl) (by decide)]
    rfl

theorem vars_cascade_plainTree
    (read : entriesOf (plainTree text) none ⟨"/w/.env"⟩ = .ok [("A", .str raw)])
    (session : Session) :
    ((cascade (plainTree text) plainSettings).after session).vars["A"]? =
      (if session.vars["A"]? = some raw then none else session.vars["A"]?).or (some "prod") := by
  have asked : plainSettings.purge = true := rfl
  have directory : plainSettings.workingDirectory (plainTree text) = ⟨"/w"⟩ := rfl
  have place : FilePath.join ⟨"/w"⟩ plainFile = ⟨"/w/.env"⟩ := by decide
  have kept : (purged (plainTree text) plainSettings session.vars).vars["A"]? =
      if session.vars["A"]? = some raw then none else session.vars["A"]? :=
    getElem?_purged asked (by rw [directory, place]; exact read) session.vars "A"
  have result := value_cascade_plainTree read session
  rw [value_cascade] at result
  rw [vars_cascade, result, varsAfter, getElem?_written, ← purged_vars, ← kept]
  by_cases shadowed : "A" ∈ (purged (plainTree text) plainSettings session.vars).vars
  next =>
    rw [if_pos shadowed, Std.ExtTreeMap.getElem?_eq_some_getElem shadowed]
    rfl
  next =>
    rw [if_neg shadowed]
    rfl

theorem purged_base_gives_way :
    ∃ after final,
      files (plainTree "A=base\n") plainSettings [⟨"/w/.env"⟩] ⟨∅, []⟩ =
        .ok [("A", .str "base")] after ∧
      Agree (cascade (plainTree "A=base\n") plainSettings) after ⟨∅, []⟩ ∧
      cascade (plainTree "A=base\n") plainSettings after = .ok [("A", .str "prod")] final ∧
      after.vars["A"]? = some "base" ∧ final.vars["A"]? = some "prod" := by
  have read := plainTree_reads.2.1
  have typed : Value.typed "base" = .str "base" := rfl
  obtain ⟨after, ran, stored⟩ := files_plainTree read (by decide)
  rw [typed] at ran stored
  have fresh : ∀ key ∈ Fields.keys [("A", .str "base")], key ∉ (∅ : Variables) := by
    intro key _
    exact Std.ExtTreeMap.not_mem_empty
  have reverts := purge_reverts_as_written (plainTree "A=base\n") plainSettings ⟨"/w/.env"⟩ ⟨∅, []⟩
    after _ _ rfl read rfl fresh ran
  have agree := reverts.2.1 (by simpa [Fields.keys, AsWritten, Fields.get?] using stored)
  have result := value_cascade_plainTree read after
  refine ⟨after, _, ran, agree, Action.eq_ok_iff.mpr ⟨result, rfl⟩, stored, ?_⟩
  rw [agree.2 _ result, vars_cascade_plainTree read]
  rfl

theorem purging_keeps_respelled_number :
    ¬ ∀ (tree : Tree) (settings : Settings) (path : FilePath) (session after : Session)
      (entries loaded : Fields), settings.purge = true →
      entriesOf tree settings.encoding ((settings.workingDirectory tree).join plainFile) =
        .ok entries →
      tree.content path = tree.content ((settings.workingDirectory tree).join plainFile) →
      (∀ key ∈ entries.keys, key ∉ session.vars) →
      files tree settings [path] session = .ok loaded after →
      Agree (cascade tree settings) after session := by
  intro reverts
  obtain ⟨_, _, read, _, respelled⟩ := plainTree_reads
  obtain ⟨after, ran, stored⟩ := files_plainTree read (by decide)
  rw [respelled] at stored
  have fresh : ∀ key ∈ Fields.keys [("A", .str "1.0")], key ∉ (∅ : Variables) := by
    intro key _
    exact Std.ExtTreeMap.not_mem_empty
  have agree := reverts (plainTree "A=1.0\n") plainSettings ⟨"/w/.env"⟩ ⟨∅, []⟩ after _ _ rfl read
    rfl fresh ran
  have here := congrArg (fun vars : Variables => vars["A"]?)
    (agree.2 _ (value_cascade_plainTree read after))
  simp only [vars_cascade_plainTree read, stored] at here
  exact absurd here (by decide)

end LayeredEnv.Loading
