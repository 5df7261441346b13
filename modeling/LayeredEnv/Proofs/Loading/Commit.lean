import LayeredEnv.Proofs.Loading.Resolution

set_option autoImplicit false

namespace LayeredEnv

open Disk (FilePath Tree)

theorem Variables.getElem?_eraseAll (vars : Variables) (names : List String) (key : String) :
    (vars.eraseAll names)[key]? = if key ∈ names then none else vars[key]? := by
  rw [Variables.eraseAll]
  induction names generalizing vars with
  | nil => simp
  | cons name rest ih =>
    rw [List.foldl_cons, ih, Std.ExtTreeMap.getElem?_erase]
    by_cases later : key ∈ rest
    next => simp [later]
    next =>
      by_cases same : key = name
      next => simp [same]
      next => simp [later, same, Ne.symm same]

namespace Loading

theorem unsetAll_writes (keys : List String) :
    (unsetAll keys).Writes fun vars => vars.eraseAll keys := by
  have each (key : String) : Action.Writes (do
      Action.note (.unsetting key)
      Action.unset key) fun vars => vars.erase key :=
    fun session => by simp [Except.bind]
  exact Action.Writes.forM each keys

def AsWritten (entries : Fields) (vars : Variables) (key : String) : Prop :=
  vars[key]? = (entries.get? key).map Json.render

instance (entries : Fields) (vars : Variables) (key : String) :
    Decidable (AsWritten entries vars key) :=
  inferInstanceAs (Decidable (vars[key]? = _))

theorem asWritten_of_not_mem {entries : Fields} {key : String} (outside : key ∉ entries.keys)
    (vars : Variables) : AsWritten entries vars key ↔ vars[key]? = none := by
  rw [← Fields.get?_isSome_iff, Option.not_isSome_iff_eq_none] at outside
  rw [AsWritten, outside, Option.map_none]

theorem mem_loadedKeys {entries : Fields} (distinct : entries.keys.Nodup) (vars : Variables)
    (key : String) :
    key ∈ loadedKeys entries vars ↔ key ∈ entries.keys ∧ AsWritten entries vars key := by
  simp only [loadedKeys, Fields.keys, List.mem_map, List.mem_filter, decide_eq_true_eq]
  constructor
  · rintro ⟨⟨_, value⟩, ⟨listed, held⟩, rfl⟩
    have found := Fields.get?_of_mem distinct listed
    exact ⟨⟨_, listed, rfl⟩, by rw [AsWritten, found, held, Option.map_some]⟩
  · rintro ⟨⟨⟨_, value⟩, listed, rfl⟩, written⟩
    rw [AsWritten, Fields.get?_of_mem distinct listed] at written
    exact ⟨_, ⟨listed, written⟩, rfl⟩

def withoutLoaded (entries : Fields) (vars : Variables) : Variables :=
  vars.eraseAll (loadedKeys entries vars)

theorem getElem?_withoutLoaded {entries : Fields} (distinct : entries.keys.Nodup)
    (vars : Variables) (key : String) :
    (withoutLoaded entries vars)[key]? =
      if AsWritten entries vars key then none else vars[key]? := by
  rw [withoutLoaded, Variables.getElem?_eraseAll]
  simp only [mem_loadedKeys distinct]
  by_cases written : AsWritten entries vars key
  next =>
    by_cases named : key ∈ entries.keys
    next => rw [if_pos ⟨named, written⟩, if_pos written]
    next => rw [if_pos written, (asWritten_of_not_mem named vars).mp written, ite_self]
  next => rw [if_neg fun loaded => written loaded.2, if_neg written]

theorem withoutLoaded_idem {entries : Fields} (distinct : entries.keys.Nodup) (vars : Variables) :
    withoutLoaded entries (withoutLoaded entries vars) = withoutLoaded entries vars := by
  apply Std.ExtTreeMap.ext_getElem?
  intro key
  have once := getElem?_withoutLoaded distinct vars key
  rw [getElem?_withoutLoaded distinct]
  split
  next again =>
    by_cases written : AsWritten entries vars key
    next => rw [once, if_pos written]
    next =>
      -- What is kept is not as written, so it is kept again.
      rw [if_neg written] at once
      rw [AsWritten, once] at again
      exact absurd again written
  next => rfl

def insertNew (staged : Variables) (entry : String × Json) (vars : Variables) : Variables :=
  if staged.contains entry.1 || vars.contains entry.1 then vars
  else vars.insert entry.1 entry.2.render

theorem assignNew_writes (staged : Variables) (entry : String × Json) :
    (assignNew staged entry).Writes (insertNew staged entry) := by
  intro session
  simp only [assignNew, insertNew, Action.value_bind, Action.after_bind, Action.value_vars,
    Action.after_vars, Except.bind]
  split <;> simp

theorem getElem?_insertNew (staged : Variables) (entry : String × Json) (vars : Variables)
    (key : String) :
    (insertNew staged entry vars)[key]? =
      vars[key]?.or (if key = entry.1 ∧ key ∉ staged then some entry.2.render else none) := by
  rw [insertNew]
  by_cases same : key = entry.1
  next =>
    subst same
    by_cases shadowed : entry.1 ∈ staged <;> by_cases present : entry.1 ∈ vars <;>
      simp [shadowed, present]
  next =>
    split <;> simp [same, Ne.symm same, Std.ExtTreeMap.getElem?_insert]

theorem getElem?_insertAll (staged : Variables) (fields : Fields) (vars : Variables)
    (key : String) :
    (fields.foldl (fun vars entry => insertNew staged entry vars) vars)[key]? =
      vars[key]?.or (if key ∈ staged then none else (fields.get? key).map Json.render) := by
  induction fields generalizing vars with
  | nil => simp
  | cons entry rest ih =>
    obtain ⟨name, value⟩ := entry
    rw [List.foldl_cons, ih, getElem?_insertNew]
    by_cases same : key = name
    next =>
      subst same
      by_cases shadowed : key ∈ staged <;> simp [Fields.get?, shadowed]
    next => simp [Fields.get?, same, Ne.symm same]

theorem get?_committed_of_not_mem {overlay : Overlay} {resolved : Fields} {vars : Variables}
    {key : String} (absent : key ∉ vars) :
    ((committed overlay resolved vars).get? key).map Json.render =
      (resolved.get? key).map Json.render := by
  have texts : ∀ entry ∈ vars.toList.map fun entry => (entry.1, Json.str entry.2),
      ∃ text, entry.2 = .str text := by
    intro entry member
    obtain ⟨pair, _, rfl⟩ := List.mem_map.mp member
    exact ⟨pair.2, rfl⟩
  have outside : key ∉ Fields.keys (vars.toList.map fun entry => (entry.1, Json.str entry.2)) := by
    intro member
    simp only [Fields.keys, List.map_map, List.mem_map, Function.comp] at member
    obtain ⟨pair, listed, rfl⟩ := member
    have held := Std.ExtTreeMap.mem_toList_iff_getElem?_eq_some.mp listed
    exact absent (Std.ExtTreeMap.mem_iff_isSome_getElem?.mpr (by simp [held]))
  rw [committed, Overlay.fields_of_texts _ _ _ texts, Fields.get?_setAll_of_not_mem outside]
  induction resolved with
  | nil => rfl
  | cons entry rest ih =>
    obtain ⟨name, value⟩ := entry
    by_cases same : name = key
    next => simp [Fields.get?, same, Json.render]
    next => simpa [Fields.get?, same] using ih

def resolvedEntries (tree : Tree) (settings : Settings) (vars : Variables)
    (paths : List FilePath) : Except LoadError Fields :=
  (rawEntries tree settings.encoding settings.overlay paths).bind fun entries =>
    (resolveEntries vars entries.keys entries).mapError .cyclicReference

theorem resolvedEntries_of_read {tree : Tree} {settings : Settings} {paths : List FilePath}
    {raw : Fields} (read : rawEntries tree settings.encoding settings.overlay paths = .ok raw)
    (vars : Variables) :
    resolvedEntries tree settings vars paths =
      (resolveEntries vars raw.keys raw).mapError .cyclicReference := by
  rw [resolvedEntries, read]
  rfl

theorem resolvedEntries_of_unread {tree : Tree} {settings : Settings} {paths : List FilePath}
    {error : LoadError}
    (unread : rawEntries tree settings.encoding settings.overlay paths = .error error)
    (vars : Variables) : resolvedEntries tree settings vars paths = .error error := by
  rw [resolvedEntries, unread]
  rfl

def prepare (tree : Tree) (settings : Settings) (vars : Variables) (paths : List FilePath) :
    Action Fields := do
  Action.note (.loading paths.length)
  let entries ← mergeFiles tree settings.encoding settings.overlay paths
  resolveKeys vars entries.keys entries

def writeBack (overlay : Overlay) (staged : Staged) (resolved : Fields) : Action Unit := do
  unsetAll staged.removals
  (committed overlay resolved staged.vars).forM (assignNew staged.vars)

theorem commit_eq (tree : Tree) (settings : Settings) (staged : Staged) (paths : List FilePath) :
    commit tree settings staged paths = (do
      let resolved ← prepare tree settings staged.vars paths
      writeBack settings.overlay staged resolved
      return resolved) := by
  simp [commit, prepare, writeBack]

theorem value_prepare (tree : Tree) (settings : Settings) (vars : Variables)
    (paths : List FilePath) (session : Session) :
    (prepare tree settings vars paths).value session =
      resolvedEntries tree settings vars paths := by
  simp [prepare, resolvedEntries, Except.bind, value_mergeFiles, value_resolveKeys]

theorem prepare_quiet (tree : Tree) (settings : Settings) (vars : Variables)
    (paths : List FilePath) : (prepare tree settings vars paths).Quiet :=
  Action.Quiet.bind (fun _ => rfl) fun _ =>
    (mergeFiles_quiet tree settings.encoding settings.overlay paths).bind fun entries =>
      resolveKeys_quiet vars entries.keys entries

def written (overlay : Overlay) (staged : Staged) (resolved : Fields) (vars : Variables) :
    Variables :=
  (committed overlay resolved staged.vars).foldl
    (fun vars entry => insertNew staged.vars entry vars) (vars.eraseAll staged.removals)

theorem writeBack_writes (overlay : Overlay) (staged : Staged) (resolved : Fields) :
    (writeBack overlay staged resolved).Writes (written overlay staged resolved) := by
  intro session
  obtain ⟨unset, erased⟩ := unsetAll_writes staged.removals session
  obtain ⟨assign, final⟩ := Action.Writes.forM (assignNew_writes staged.vars)
    (committed overlay resolved staged.vars) ((unsetAll staged.removals).after session)
  rw [erased] at final
  simp only [writeBack, Action.value_bind, Action.after_bind, unset]
  exact ⟨assign, final⟩

theorem value_commit (tree : Tree) (settings : Settings) (staged : Staged)
    (paths : List FilePath) (session : Session) :
    (commit tree settings staged paths).value session =
      resolvedEntries tree settings staged.vars paths := by
  rw [commit_eq, Action.value_bind, value_prepare]
  cases resolvedEntries tree settings staged.vars paths with
  | error error => rfl
  | ok resolved =>
    simp [Except.bind, Except.map, (writeBack_writes settings.overlay staged resolved _).1]

def varsAfter (overlay : Overlay) (staged : Staged) (vars : Variables) :
    Except LoadError Fields → Variables
  | .ok resolved => written overlay staged resolved vars
  | .error _ => vars

theorem vars_commit (tree : Tree) (settings : Settings) (staged : Staged)
    (paths : List FilePath) (session : Session) :
    ((commit tree settings staged paths).after session).vars =
      varsAfter settings.overlay staged session.vars
        (resolvedEntries tree settings staged.vars paths) := by
  have quiet := prepare_quiet tree settings staged.vars paths session
  rw [commit_eq, Action.after_bind, value_prepare]
  cases resolvedEntries tree settings staged.vars paths with
  | error error => exact quiet
  | ok resolved =>
    obtain ⟨succeeds, final⟩ := writeBack_writes settings.overlay staged resolved
      ((prepare tree settings staged.vars paths).after session)
    rw [quiet] at final
    simp [final, varsAfter]

theorem getElem?_written (overlay : Overlay) (staged : Staged) (resolved : Fields)
    (vars : Variables) (key : String) :
    (written overlay staged resolved vars)[key]? =
      (vars.eraseAll staged.removals)[key]?.or
        (if key ∈ staged.vars then none else (resolved.get? key).map Json.render) := by
  rw [written, getElem?_insertAll]
  by_cases shadowed : key ∈ staged.vars
  next => simp [shadowed]
  next => simp [shadowed, get?_committed_of_not_mem shadowed]

end Loading
end LayeredEnv
