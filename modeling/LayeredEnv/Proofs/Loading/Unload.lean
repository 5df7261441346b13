import LayeredEnv.Proofs.Loading.Load

set_option autoImplicit false

namespace LayeredEnv

open Disk (FilePath Tree)

namespace Disk.FilePath

theorem distinctFrom_of_distinct {seen : List (Bool × List String)} {paths : List FilePath}
    (distinct : (paths.map normalized).Nodup)
    (fresh : ∀ path ∈ paths, path.normalized ∉ seen) : distinctFrom seen paths = paths := by
  induction paths generalizing seen with
  | nil => rfl
  | cons path rest ih =>
    obtain ⟨apart, distinct⟩ := List.nodup_cons.mp distinct
    rw [distinctFrom, if_neg (fresh path List.mem_cons_self), ih distinct]
    intro other member again
    rcases List.mem_cons.mp again with same | before
    · exact apart (same ▸ List.mem_map_of_mem member)
    · exact fresh other (List.mem_cons_of_mem _ member) before

theorem distinct_of_distinct {paths : List FilePath} (distinct : (paths.map normalized).Nodup) :
    FilePath.distinct paths = paths :=
  distinctFrom_of_distinct distinct fun _ _ => List.not_mem_nil

end Disk.FilePath

namespace Loading

variable {tree : Tree} {settings : Settings} {paths : List FilePath} {session final : Session}
  {raw : Fields}

theorem unload_of_read
    (read : rawEntries tree settings.encoding settings.overlay paths = .ok raw)
    (session : Session) :
    ∃ final, unload tree settings paths session = .ok () final ∧
      final.vars = withoutLoaded raw session.vars := by
  have result : (unload tree settings paths).value session = .ok () := by
    rw [value_unload, read]
    rfl
  refine ⟨_, Action.eq_ok_iff.mpr ⟨result, rfl⟩, ?_⟩
  rw [vars_unload, read]
  rfl

theorem unload_eq_ok (ran : unload tree settings paths session = .ok () final) :
    ∃ raw, rawEntries tree settings.encoding settings.overlay paths = .ok raw ∧
      final.vars = withoutLoaded raw session.vars := by
  obtain ⟨result, rfl⟩ := Action.eq_ok_iff.mp ran
  rw [value_unload] at result
  obtain ⟨raw, read, _⟩ := map_eq_ok_iff.mp result
  refine ⟨raw, read, ?_⟩
  rw [vars_unload, read]
  rfl

/-- What a key was loaded as is rendered to another text than the files have for it. -/
def Respelled (raw loaded : Fields) (key : String) : Prop :=
  (loaded.get? key).map Json.render ≠ (raw.get? key).map Json.render

instance (raw loaded : Fields) (key : String) : Decidable (Respelled raw loaded key) :=
  inferInstanceAs (Decidable (_ ≠ _))

theorem getElem?_withoutLoaded_load {loaded : Fields} {before after : Variables}
    (distinct : raw.keys.Nodup) (keys : loaded.keys = raw.keys)
    (fresh : ∀ key ∈ raw.keys, key ∉ before)
    (vars : ∀ key, after[key]? = before[key]?.or ((loaded.get? key).map Json.render))
    (key : String) :
    (withoutLoaded raw after)[key]? =
      if key ∈ loaded.keys ∧ Respelled raw loaded key then (loaded.get? key).map Json.render
      else before[key]? := by
  rw [getElem?_withoutLoaded distinct]
  by_cases member : key ∈ raw.keys
  next =>
    have absent := Std.ExtTreeMap.getElem?_eq_none (fresh key member)
    have stored : after[key]? = (loaded.get? key).map Json.render := by
      rw [vars, absent, Option.none_or]
    have written : AsWritten raw after key ↔ ¬ Respelled raw loaded key := by
      rw [AsWritten, stored, Respelled, not_not]
    by_cases respelled : Respelled raw loaded key
    next =>
      have kept : ¬ AsWritten raw after key := fun unset => written.mp unset respelled
      rw [if_neg kept, if_pos ⟨keys ▸ member, respelled⟩, stored]
    next =>
      have unset := written.mpr respelled
      rw [if_pos unset, if_neg fun stays => respelled stays.2, absent]
  next =>
    have outside : ¬ (key ∈ loaded.keys ∧ Respelled raw loaded key) :=
      fun stays => member (keys ▸ stays.1)
    have kept : after[key]? = before[key]? := by
      rw [vars, Fields.get?_eq_none_of_not_mem (keys ▸ member), Option.map_none, Option.or_none]
    rw [if_neg outside, ← kept]
    split
    next written => exact ((asWritten_of_not_mem member after).mp written).symm
    next => rfl

/-- Unloading unsets the variables that hold what the files say, and doing it again changes nothing.
After a load of distinct files none of whose keys was set, it leaves the values that are spelled
otherwise than in the files. -/
theorem unload_keeps_respelled (tree : Tree) (settings : Settings) (paths : List FilePath)
    (session : Session) :
    (∀ final, unload tree settings paths session = .ok () final →
      ∃ raw, rawEntries tree settings.encoding settings.overlay paths = .ok raw ∧
        (∀ key, final.vars[key]? =
          if key ∈ raw.keys ∧ AsWritten raw session.vars key then none else session.vars[key]?) ∧
        ∃ again, unload tree settings paths final = .ok () again ∧ again.vars = final.vars) ∧
    (∀ raw loaded after, (paths.map FilePath.normalized).Nodup →
      rawEntries tree settings.encoding settings.overlay paths = .ok raw →
      (∀ key ∈ raw.keys, key ∉ session.vars) →
      files tree settings paths session = .ok loaded after →
      ∃ final, unload tree settings paths after = .ok () final ∧
        ∀ key, final.vars[key]? =
          if key ∈ loaded.keys ∧ Respelled raw loaded key then (loaded.get? key).map Json.render
          else session.vars[key]?) := by
  refine ⟨fun final ran => ?_, fun raw loaded after apart read fresh ran => ?_⟩
  · obtain ⟨raw, read, vars⟩ := unload_eq_ok ran
    have distinct := (rawEntries_raw read).distinct
    obtain ⟨again, reran, same⟩ := unload_of_read read final
    refine ⟨raw, read, fun key => ?_, again, reran, ?_⟩
    · rw [vars, withoutLoaded, Variables.getElem?_eraseAll]
      simp only [mem_loadedKeys distinct]
    · rw [same, vars, withoutLoaded_idem distinct]
  · obtain ⟨entries, merged, resolved, vars⟩ := files_eq_ok ran
    rw [FilePath.distinct_of_distinct apart, read] at merged
    cases merged
    obtain ⟨final, unloaded, left⟩ := unload_of_read read after
    refine ⟨final, unloaded, fun key => ?_⟩
    rw [left]
    exact getElem?_withoutLoaded_load (rawEntries_raw read).distinct
      (resolveEntries_keys (fun _ member => member) resolved) fresh vars key

def respelledTree : Tree where
  nodes := [(["w"], .directory), (["w", ".env"], .file "A=1.0\nB=x\n".toUTF8.toList),
    (["w", ".env.local"], .file "B=y\n".toUTF8.toList)]
  current := ⟨"/w"⟩

def respelledPaths : List FilePath := [⟨"/w/.env"⟩, ⟨"/w/.env.local"⟩]

def respelledSession : Session := ⟨Variables.ofList [("Z", "z")], []⟩

theorem respelledTree_reads :
    rawEntries respelledTree none Overlay.default respelledPaths =
      .ok [("A", .str "1.0"), ("B", .str "y")] ∧
    (respelledPaths.map FilePath.normalized).Nodup ∧ (Value.typed "1.0").render = "1" ∧
    Respelled [("A", .str "1.0"), ("B", .str "y")] [("A", Value.typed "1.0"), ("B", .str "y")]
      "A" := by
  decide +kernel

theorem value_files_respelledTree :
    (files respelledTree {} respelledPaths).value respelledSession =
      .ok [("A", Value.typed "1.0"), ("B", .str "y")] := by
  obtain ⟨read, distinct, _⟩ := respelledTree_reads
  rw [← FilePath.distinct_of_distinct distinct] at read
  have typed : Value.typed "y" = .str "y" := rfl
  rw [value_files, resolvedEntries_of_read read]
  simp only [Fields.keys, List.map_cons, List.map_nil]
  rw [resolveEntries_of_plain "1.0" (by decide) (rawText_of_field rfl) (by decide),
    resolveEntries_of_plain "y" (by decide) (rawText_of_field rfl) (by decide), typed]
  rfl

theorem respelled_number_stays :
    ∃ after final,
      files respelledTree {} respelledPaths respelledSession =
        .ok [("A", Value.typed "1.0"), ("B", .str "y")] after ∧
      unload respelledTree {} respelledPaths after = .ok () final ∧
      final.vars["A"]? = some "1" ∧ final.vars["B"]? = none ∧ final.vars["Z"]? = some "z" ∧
      ∃ again, unload respelledTree {} respelledPaths final = .ok () again ∧
        again.vars = final.vars := by
  obtain ⟨read, distinct, number, respelled⟩ := respelledTree_reads
  have ran := Action.eq_ok_iff.mpr ⟨value_files_respelledTree, rfl⟩
  have fresh : ∀ key ∈ Fields.keys [("A", .str "1.0"), ("B", .str "y")],
      key ∉ respelledSession.vars := by decide
  obtain ⟨final, unloaded, vars⟩ :=
    (unload_keeps_respelled respelledTree {} respelledPaths respelledSession).2 _ _ _ distinct read
      fresh ran
  obtain ⟨_, _, _, repeated⟩ :=
    (unload_keeps_respelled respelledTree {} respelledPaths _).1 final unloaded
  refine ⟨_, final, ran, unloaded, ?_, ?_, ?_, repeated⟩
  · rw [vars, if_pos ⟨by decide, respelled⟩, ← number]
    rfl
  · rw [vars, if_neg (by decide)]
    decide
  · rw [vars, if_neg (by decide)]
    decide

end Loading
end LayeredEnv
