import LayeredEnv.Proofs.Loading.Effect

set_option autoImplicit false

namespace LayeredEnv.Loading

open Disk (FilePath Tree)

inductive Call
  | cascade (settings : Settings)
  | files (settings : Settings) (paths : List FilePath)

namespace Call

def action (tree : Tree) : Call → Action Fields
  | .cascade settings => Loading.cascade tree settings
  | .files settings paths => Loading.files tree settings paths

-- A load of files given by name does not look at the setting.
def purges : Call → Bool
  | .cascade settings => settings.purge
  | .files _ _ => false

end Call

def run (tree : Tree) (calls : List Call) (session : Session) : Session :=
  calls.foldl (fun session call => (call.action tree).after session) session

theorem run_append (tree : Tree) (earlier later : List Call) (session : Session) :
    run tree (earlier ++ later) session = run tree later (run tree earlier session) :=
  List.foldl_append

def Grows (before after : Variables) : Prop :=
  ∀ key text : String, before[key]? = some text → after[key]? = some text

theorem Grows.refl (vars : Variables) : Grows vars vars := fun _ _ held => held

theorem Grows.trans {first middle last : Variables} (early : Grows first middle)
    (late : Grows middle last) : Grows first last :=
  fun key text held => late key text (early key text held)

theorem Grows.mem {before after : Variables} (grows : Grows before after) {key : String}
    (present : key ∈ before) : key ∈ after := by
  have held := grows key _ (Std.ExtTreeMap.getElem?_eq_some_getElem present)
  exact Std.ExtTreeMap.mem_iff_isSome_getElem?.mpr (by simp [held])

theorem varsAfter_grows (overlay : Overlay) (vars : Variables) (result : Except LoadError Fields) :
    Grows vars (varsAfter overlay ⟨vars, []⟩ vars result) := by
  cases result with
  | error error => exact Grows.refl vars
  | ok resolved =>
    intro key text held
    have kept : (vars.eraseAll [])[key]? = some text := held
    rw [varsAfter, getElem?_written, kept, Option.some_or]

theorem Call.grows (tree : Tree) (call : Call) (plain : call.purges = false) (session : Session) :
    Grows session.vars ((call.action tree).after session).vars := by
  cases call with
  | cascade settings =>
    have off : settings.purge = false := plain
    have staged : purged tree settings session.vars = ⟨session.vars, []⟩ :=
      purged_of_unread fun asked => by simp [off] at asked
    rw [Call.action, vars_cascade, staged]
    exact varsAfter_grows settings.overlay session.vars _
  | files settings paths =>
    rw [Call.action, vars_files]
    exact varsAfter_grows settings.overlay session.vars _

theorem run_grows (tree : Tree) {calls : List Call} (plain : ∀ call ∈ calls, call.purges = false)
    (session : Session) : Grows session.vars (run tree calls session).vars := by
  induction calls generalizing session with
  | nil => exact Grows.refl session.vars
  | cons call rest ih =>
    have first := call.grows tree (plain call (by simp)) session
    have later := ih (fun call member => plain call (by simp [member]))
      ((call.action tree).after session)
    exact first.trans later

theorem run_take_grows (tree : Tree) {calls : List Call}
    (plain : ∀ call ∈ calls, call.purges = false) (session : Session) {early late : Nat}
    (ordered : early ≤ late) :
    Grows (run tree (calls.take early) session).vars (run tree (calls.take late) session).vars := by
  obtain ⟨more, rfl⟩ := Nat.exists_eq_add_of_le ordered
  rw [List.take_add, run_append]
  refine run_grows tree (fun call member => plain call ?_) _
  exact List.mem_of_mem_drop (List.mem_of_mem_take member)

theorem resolveEntries_of_all_mem {vars : Variables} {keys : List String}
    (shadowed : ∀ key ∈ keys, key ∈ vars) (entries : Fields) :
    resolveEntries vars keys entries = .ok entries := by
  induction keys with
  | nil => rfl
  | cons key rest ih =>
    rw [resolveEntries_of_mem (shadowed key (by simp))]
    exact ih fun key member => shadowed key (by simp [member])

theorem files_of_all_mem {tree : Tree} {settings : Settings} {paths : List FilePath}
    {session : Session} {raw : Fields}
    (read : rawEntries tree settings.encoding settings.overlay (FilePath.distinct paths) = .ok raw)
    (shadowed : ∀ key ∈ raw.keys, key ∈ session.vars) :
    ∃ again, files tree settings paths session = .ok raw again ∧ again.vars = session.vars := by
  have result : resolvedEntries tree settings session.vars (FilePath.distinct paths) = .ok raw := by
    rw [resolvedEntries_of_read read, resolveEntries_of_all_mem shadowed]
    rfl
  refine ⟨_, Action.eq_ok_iff.mpr ⟨(value_files ..).trans result, rfl⟩, ?_⟩
  -- What is written stands behind what is set, and every key that is written is set.
  rw [vars_files, result, varsAfter]
  apply Std.ExtTreeMap.ext_getElem?
  intro key
  rw [getElem?_written]
  change session.vars[key]?.or _ = _
  by_cases present : key ∈ session.vars
  next => rw [if_pos present, Option.or_none]
  next =>
    have absent : raw.get? key = none := by
      rw [← Option.not_isSome_iff_eq_none, Fields.get?_isSome_iff]
      exact fun member => present (shadowed key member)
    rw [if_neg present, absent, Option.map_none, Option.or_none]

theorem files_defines_all {tree : Tree} {settings : Settings} {paths : List FilePath}
    {session after : Session} {loaded : Fields}
    (ran : files tree settings paths session = .ok loaded after) :
    ∃ raw, rawEntries tree settings.encoding settings.overlay (FilePath.distinct paths) = .ok raw ∧
      ∀ key ∈ raw.keys, key ∈ after.vars := by
  obtain ⟨raw, read, _⟩ := files_eq_ok ran
  refine ⟨raw, read, fun key member => ?_⟩
  obtain ⟨text, held⟩ := files_defines ran read (.inl member)
  exact Std.ExtTreeMap.mem_iff_isSome_getElem?.mpr (by simp [held])

/-- Over a run without purging each variable keeps its text from the point where it is set, and a
load that has succeeded succeeds again at every later point, with the raw entries of its files and
without a change. -/
theorem runs_only_grow (tree : Tree) (calls : List Call)
    (plain : ∀ call ∈ calls, call.purges = false) (start : Session) :
    (∀ early late, early ≤ late → ∀ key text : String,
      (run tree (calls.take early) start).vars[key]? = some text →
      (run tree (calls.take late) start).vars[key]? = some text) ∧
    (∀ made later settings paths loaded after, calls[made]? = some (.files settings paths) →
      files tree settings paths (run tree (calls.take made) start) = .ok loaded after →
      made < later →
      ∃ raw again,
        rawEntries tree settings.encoding settings.overlay (FilePath.distinct paths) = .ok raw ∧
        files tree settings paths (run tree (calls.take later) start) = .ok raw again ∧
        again.vars = (run tree (calls.take later) start).vars) := by
  refine ⟨fun early late ordered => run_take_grows tree plain start ordered, ?_⟩
  intro made later settings paths loaded after listed ran before
  obtain ⟨raw, read, defined⟩ := files_defines_all ran
  -- The load is the last of the calls up to the point behind it, and leaves its keys set there.
  have reached : run tree (calls.take (made + 1)) start = after := by
    rw [List.take_add_one, listed, run_append]
    exact (Action.eq_ok_iff.mp ran).2
  have grown := run_take_grows tree plain start (Nat.succ_le_of_lt before)
  rw [reached] at grown
  obtain ⟨again, repeated, same⟩ :=
    files_of_all_mem read fun key member => grown.mem (defined key member)
  exact ⟨raw, again, read, repeated, same⟩

-- The plain file, a file that is missing, and the cascade, whose local file has other values.
def layeredCalls : List Call :=
  [.files {} [⟨"/w/.env"⟩], .files {} [⟨"/w/gone"⟩], .cascade {}]

theorem layered_run_grows :
    (∀ call ∈ layeredCalls, call.purges = false) ∧
    layeredCalls[0]? = some (.files {} [⟨"/w/.env"⟩]) ∧
    (run layeredTree (layeredCalls.take 1) layeredSession).vars["B"]? = some "1" ∧
    (run layeredTree (layeredCalls.take 3) layeredSession).vars["B"]? = some "1" ∧
    (∃ after,
      files layeredTree {} [⟨"/w/.env"⟩] (run layeredTree (layeredCalls.take 0) layeredSession) =
        .ok [("A", .str "old"), ("B", .num (.int 1))] after) ∧
    ∃ again,
      files layeredTree {} [⟨"/w/.env"⟩] (run layeredTree (layeredCalls.take 3) layeredSession) =
        .ok [("A", .str "old"), ("B", .str "1")] again ∧
      again.vars = (run layeredTree (layeredCalls.take 3) layeredSession).vars := by
  have plain : ∀ call ∈ layeredCalls, call.purges = false := by decide
  have ran := Action.eq_ok_iff.mpr ⟨value_files_layeredTree, rfl⟩
  have grows := runs_only_grow layeredTree layeredCalls plain layeredSession
  have set : (run layeredTree (layeredCalls.take 1) layeredSession).vars["B"]? = some "1" := by
    obtain ⟨_, _, _, vars⟩ := files_eq_ok ran
    exact (vars "B").trans rfl
  obtain ⟨raw, again, read, repeated, same⟩ := grows.2 0 3 {} _ _ _ rfl ran (by decide)
  have entries := layeredTree_reads.2.2.1
  rw [read] at entries
  cases entries
  exact ⟨plain, rfl, set, grows.1 1 3 (by decide) "B" "1" set, ⟨_, ran⟩, again, repeated, same⟩

end LayeredEnv.Loading
