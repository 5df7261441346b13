import LayeredEnv.Json.Overlay

set_option autoImplicit false

namespace LayeredEnv

namespace Fields

theorem get?_set (key other : String) (value : Json) (fields : Fields) :
    (fields.set key value).get? other = if other = key then some value else fields.get? other := by
  by_cases same : other = key
  next => subst same; simp
  next => rw [get?_set_of_ne (Ne.symm same), if_neg same]

theorem mem_of_get? {key : String} {value : Json} {fields : Fields}
    (found : fields.get? key = some value) : (key, value) ∈ fields := by
  induction fields with
  | nil => cases found
  | cons field rest ih =>
    obtain ⟨name, first⟩ := field
    by_cases same : name = key
    next =>
      simp only [get?, same, if_true, Option.some.injEq] at found
      simp [same, found]
    next =>
      simp only [get?, same, if_false] at found
      exact List.mem_cons_of_mem _ (ih found)

theorem get?_of_mem {key : String} {value : Json} {fields : Fields} (distinct : fields.keys.Nodup)
    (member : (key, value) ∈ fields) : fields.get? key = some value := by
  induction fields with
  | nil => cases member
  | cons field rest ih =>
    obtain ⟨name, first⟩ := field
    simp only [keys, List.map_cons, List.nodup_cons] at distinct
    rcases List.mem_cons.mp member with here | later
    · cases here
      simp [get?]
    · have differ : name ≠ key := by
        rintro rfl
        exact distinct.1 (List.mem_map_of_mem later)
      rw [get?, if_neg differ]
      exact ih distinct.2 later

theorem get?_perm {first second : Fields} (same : first.Perm second) (distinct : first.keys.Nodup)
    (key : String) : first.get? key = second.get? key := by
  have apart : second.keys.Nodup := (same.map Prod.fst).nodup_iff.mp distinct
  apply Option.ext
  intro value
  exact ⟨fun found => get?_of_mem apart (same.mem_iff.mp (mem_of_get? found)),
    fun found => get?_of_mem distinct (same.mem_iff.mpr (mem_of_get? found))⟩

theorem set_of_not_mem {key : String} {fields : Fields} (absent : key ∉ fields.keys)
    (value : Json) : fields.set key value = fields ++ [(key, value)] := by
  induction fields with
  | nil => rfl
  | cons field rest ih =>
    obtain ⟨name, old⟩ := field
    simp only [keys, List.map_cons, List.mem_cons, not_or] at absent
    rw [set, if_neg (Ne.symm absent.1), ih absent.2, List.cons_append]

theorem mem_set {entry : String × Json} {key : String} {value : Json} {fields : Fields}
    (member : entry ∈ fields.set key value) : entry = (key, value) ∨ entry ∈ fields := by
  induction fields with
  | nil => exact .inl (List.mem_singleton.mp member)
  | cons field rest ih =>
    obtain ⟨name, old⟩ := field
    by_cases same : name = key
    next =>
      simp only [set, same, if_true, List.mem_cons] at member
      exact member.imp_right (List.mem_cons_of_mem _)
    next =>
      simp only [set, same, if_false, List.mem_cons] at member
      rcases member with rfl | later
      · exact .inr (by simp)
      · exact (ih later).imp_right (List.mem_cons_of_mem _)

theorem mem_keys_set {key name : String} {value : Json} {fields : Fields}
    (member : name ∈ (fields.set key value).keys) : name = key ∨ name ∈ fields.keys := by
  obtain ⟨entry, listed, rfl⟩ := List.mem_map.mp member
  exact (mem_set listed).imp (congrArg Prod.fst) List.mem_map_of_mem

theorem length_keys (fields : Fields) : fields.keys.length = fields.length := List.length_map _

theorem length_set_le (key : String) (value : Json) (fields : Fields) :
    (fields.set key value).length ≤ fields.length + 1 := by
  rw [← length_keys, ← length_keys fields]
  by_cases present : key ∈ fields.keys
  next => simp [keys_set_of_mem present]
  next => simp [keys_set_of_not_mem present]

structure Raw (fields : Fields) : Prop where
  distinct : fields.keys.Nodup
  texts : ∀ entry ∈ fields, ∃ text, entry.2 = .str text

theorem raw_nil : Raw [] := ⟨List.nodup_nil, fun _ member => by cases member⟩

theorem Raw.set {fields : Fields} (raw : fields.Raw) (key text : String) :
    Raw (fields.set key (.str text)) := by
  refine ⟨keys_set_nodup raw.distinct key _, fun entry member => ?_⟩
  rcases mem_set member with rfl | old
  · exact ⟨text, rfl⟩
  · exact raw.texts entry old

theorem Raw.text {fields : Fields} (raw : fields.Raw) {key : String} (member : key ∈ fields.keys) :
    ∃ text, fields.get? key = some (.str text) := by
  obtain ⟨value, found⟩ := Option.isSome_iff_exists.mp ((get?_isSome_iff key fields).mpr member)
  obtain ⟨text, same⟩ := raw.texts _ (mem_of_get? found)
  exact ⟨text, by rw [found, ← same]⟩

def setAll (lower upper : Fields) : Fields :=
  upper.foldl (fun fields entry => fields.set entry.1 entry.2) lower

theorem Raw.setAll {lower upper : Fields} (raw : lower.Raw)
    (texts : ∀ entry ∈ upper, ∃ text, entry.2 = .str text) : Raw (lower.setAll upper) := by
  induction upper generalizing lower with
  | nil => exact raw
  | cons entry rest ih =>
    obtain ⟨text, same⟩ := texts entry (by simp)
    simp only [Fields.setAll, List.foldl_cons, same]
    exact ih (raw.set _ text) fun entry member => texts entry (List.mem_cons_of_mem _ member)

theorem mem_keys_setAll {name : String} {lower upper : Fields}
    (member : name ∈ (lower.setAll upper).keys) : name ∈ lower.keys ∨ name ∈ upper.keys := by
  induction upper generalizing lower with
  | nil => exact .inl member
  | cons entry rest ih =>
    rcases ih member with before | later
    · rcases mem_keys_set before with rfl | old
      · exact .inr (by simp [keys])
      · exact .inl old
    · exact .inr (List.mem_cons_of_mem _ later)

theorem get?_setAll_of_not_mem {key : String} {lower upper : Fields} (absent : key ∉ upper.keys) :
    (lower.setAll upper).get? key = lower.get? key := by
  induction upper generalizing lower with
  | nil => rfl
  | cons entry rest ih =>
    simp only [keys, List.map_cons, List.mem_cons, not_or] at absent
    simp only [setAll, List.foldl_cons] at ih ⊢
    rw [ih absent.2, get?_set, if_neg absent.1]

theorem get?_setAll {lower upper : Fields} (distinct : upper.keys.Nodup) (key : String) :
    (lower.setAll upper).get? key = (upper.get? key).or (lower.get? key) := by
  induction upper generalizing lower with
  | nil => rfl
  | cons entry rest ih =>
    obtain ⟨name, value⟩ := entry
    simp only [keys, List.map_cons, List.nodup_cons] at distinct
    change ((lower.set name value).setAll rest).get? key = _
    by_cases same : name = key
    next =>
      subst same
      rw [get?_setAll_of_not_mem distinct.1]
      simp [get?]
    next => rw [ih distinct.2, get?_set_of_ne same, get?, if_neg same]

theorem get?_setAll_last (lower upper : Fields) (key : String) :
    (lower.setAll upper).get? key =
      ((upper.reverse.find? (·.1 = key)).map Prod.snd).or (lower.get? key) := by
  induction upper generalizing lower with
  | nil => rfl
  | cons entry rest ih =>
    have next : (lower.setAll (entry :: rest)).get? key =
        ((lower.set entry.1 entry.2).setAll rest).get? key := rfl
    rw [next, ih, List.reverse_cons, List.find?_append, get?_set]
    by_cases same : entry.1 = key
    next => cases rest.reverse.find? (·.1 = key) <;> simp [same]
    next => cases rest.reverse.find? (·.1 = key) <;> simp [same, Ne.symm same]

theorem keys_setAll (lower upper : Fields) :
    (lower.setAll upper).keys =
      lower.keys ++ (upper.keys.filter (· ∉ lower.keys)).eraseDups := by
  induction upper generalizing lower with
  | nil => simp [setAll, keys]
  | cons entry rest ih =>
    have next : (lower.setAll (entry :: rest)).keys =
        ((lower.set entry.1 entry.2).setAll rest).keys := rfl
    have listed : keys (entry :: rest) = entry.1 :: keys rest := rfl
    rw [next, ih, listed]
    by_cases present : entry.1 ∈ lower.keys
    next =>
      rw [keys_set_of_mem present, List.filter_cons_of_neg (by simp [present])]
    next =>
      have later : (keys rest).filter (· ∉ lower.keys ++ [entry.1]) =
          ((keys rest).filter (· ∉ lower.keys)).filter fun key => !key == entry.1 := by
        rw [List.filter_filter]
        refine List.filter_congr fun key _ => ?_
        by_cases key ∈ lower.keys <;> by_cases key = entry.1 <;> simp [*]
      rw [keys_set_of_not_mem present, List.filter_cons_of_pos (by simp [present]),
        List.eraseDups_cons, later, List.append_assoc, List.singleton_append]

theorem setAll_append (fields lower upper : Fields) :
    fields.setAll (lower ++ upper) = (fields.setAll lower).setAll upper := by
  rw [setAll, setAll, setAll, List.foldl_append]

theorem set_set (key : String) (old value : Json) (fields : Fields) :
    (fields.set key old).set key value = fields.set key value := by
  induction fields with
  | nil => simp [set]
  | cons field rest ih =>
    by_cases same : field.1 = key <;> simp [set, same, ih]

theorem set_eq_self {key : String} {value : Json} {fields : Fields}
    (found : fields.get? key = some value) : fields.set key value = fields := by
  induction fields with
  | nil => cases found
  | cons field rest ih =>
    obtain ⟨name, old⟩ := field
    by_cases same : name = key
    next =>
      rw [get?, if_pos same, Option.some.injEq] at found
      rw [set, if_pos same, same, found]
    next =>
      rw [get?, if_neg same] at found
      rw [set, if_neg same, ih found]

theorem get?_eq_none_of_not_mem {key : String} {fields : Fields} (absent : key ∉ fields.keys) :
    fields.get? key = none := by
  rwa [← Option.not_isSome_iff_eq_none, get?_isSome_iff]

theorem eq_of_get? {first second : Fields} (distinct : first.keys.Nodup)
    (order : first.keys = second.keys) (same : ∀ key, first.get? key = second.get? key) :
    first = second := by
  induction first generalizing second with
  | nil => exact (List.map_eq_nil_iff.mp order.symm).symm
  | cons field rest ih =>
    obtain ⟨name, value⟩ := field
    cases second with
    | nil => cases order
    | cons other later =>
      obtain ⟨other, upper⟩ := other
      simp only [keys, List.map_cons, List.cons.injEq, List.nodup_cons] at order distinct
      obtain ⟨rfl, order⟩ := order
      have here := same name
      simp only [get?, if_true, Option.some.injEq] at here
      subst here
      have rests : rest = later := by
        refine ih distinct.2 order fun key => ?_
        by_cases head : name = key
        next =>
          subst head
          have absent : name ∉ keys later := by
            rw [keys, ← order]
            exact distinct.1
          rw [get?_eq_none_of_not_mem distinct.1, get?_eq_none_of_not_mem absent]
        next => simpa only [get?, if_neg head] using same key
      rw [rests]

theorem set_comm_of_mem {key other : String} {fields : Fields} (present : key ∈ fields.keys)
    (differ : other ≠ key) (value change : Json) :
    (fields.set other change).set key value = (fields.set key value).set other change := by
  induction fields with
  | nil => cases present
  | cons field rest ih =>
    obtain ⟨name, old⟩ := field
    by_cases here : name = key
    next =>
      subst here
      simp [set, Ne.symm differ]
    next =>
      have later : key ∈ keys rest := by simpa [keys, Ne.symm here] using present
      by_cases same : name = other <;> simp [set, here, same, differ, ih later]

theorem setAll_set_of_mem {key : String} {lower upper : Fields} (present : key ∈ lower.keys)
    (absent : key ∉ upper.keys) (value : Json) :
    (lower.set key value).setAll upper = (lower.setAll upper).set key value := by
  induction upper generalizing lower with
  | nil => rfl
  | cons entry rest ih =>
    simp only [keys, List.map_cons, List.mem_cons, not_or] at absent
    have kept : key ∈ (lower.set entry.1 entry.2).keys := by
      rw [← get?_isSome_iff, get?_set, if_neg absent.1, get?_isSome_iff]
      exact present
    have swapped := set_comm_of_mem present (Ne.symm absent.1) value entry.2
    have later := ih kept absent.2
    simp only [setAll, List.foldl_cons] at later ⊢
    rw [← swapped]
    exact later

theorem setAll_set {upper : Fields} (distinct : upper.keys.Nodup) (lower : Fields) (key : String)
    (value : Json) : lower.setAll (upper.set key value) = (lower.setAll upper).set key value := by
  induction upper generalizing lower with
  | nil => rfl
  | cons entry rest ih =>
    obtain ⟨name, old⟩ := entry
    simp only [keys, List.map_cons, List.nodup_cons] at distinct
    by_cases same : name = key
    next =>
      subst same
      have present : name ∈ (lower.set name old).keys := by simp [← get?_isSome_iff]
      have later := setAll_set_of_mem present distinct.1 value
      rw [set_set] at later
      simpa [set, setAll] using later
    next => simpa [set, same, setAll] using ih distinct.2 (lower.set name old)

theorem setAll_setAll {middle : Fields} (distinct : middle.keys.Nodup) (lower upper : Fields) :
    lower.setAll (middle.setAll upper) = (lower.setAll middle).setAll upper := by
  induction upper generalizing middle with
  | nil => rfl
  | cons entry rest ih =>
    have next := ih (keys_set_nodup distinct entry.1 entry.2)
    rw [setAll_set distinct] at next
    exact next

theorem setAll_of_distinct {lower upper : Fields} (distinct : (lower ++ upper).keys.Nodup) :
    lower.setAll upper = lower ++ upper := by
  induction upper generalizing lower with
  | nil => exact (List.append_nil lower).symm
  | cons entry rest ih =>
    have absent : entry.1 ∉ lower.keys := by
      intro member
      rw [keys, List.map_append] at distinct
      exact (List.nodup_append.mp distinct).2.2 _ member _ (by simp) rfl
    rw [List.append_cons] at distinct ⊢
    rw [← ih distinct, ← set_of_not_mem absent]
    rfl

end Fields

theorem Overlay.fields_of_texts (rule : Overlay) (lower upper : Fields)
    (texts : ∀ entry ∈ upper, ∃ text, entry.2 = .str text) :
    rule.fields lower upper = lower.setAll upper := by
  induction upper generalizing lower with
  | nil => rfl
  | cons entry rest ih =>
    obtain ⟨key, value⟩ := entry
    obtain ⟨text, rfl⟩ := texts (key, value) (by simp)
    exact ih _ fun entry member => texts entry (List.mem_cons_of_mem _ member)

end LayeredEnv
