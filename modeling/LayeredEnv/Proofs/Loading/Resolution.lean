import LayeredEnv.Proofs.Loading.Entries
import LayeredEnv.Proofs.Value.Plain

set_option autoImplicit false

namespace LayeredEnv.Loading

def rawText (entries : Fields) (key : String) : String :=
  ((entries.get? key).map Json.render).getD ""

theorem rawText_of_field {entries : Fields} {key raw : String}
    (field : entries.get? key = some (.str raw)) : rawText entries key = raw := by
  simp [rawText, field, Json.render]

def resolveEntries (vars : Variables) : List String → Fields → Except (List String) Fields
  | [], entries => .ok entries
  | key :: rest, entries =>
    if key ∈ vars then resolveEntries vars rest entries
    else (Value.resolve ⟨vars, entries⟩ key (rawText entries key)).bind fun value =>
      resolveEntries vars rest (entries.set key value)

theorem resolveEntries_of_mem {vars : Variables} {key : String} (present : key ∈ vars)
    (rest : List String) (entries : Fields) :
    resolveEntries vars (key :: rest) entries = resolveEntries vars rest entries := by
  rw [resolveEntries, if_pos present]

theorem resolveEntries_of_not_mem {vars : Variables} {key : String} (absent : key ∉ vars)
    (rest : List String) (entries : Fields) :
    resolveEntries vars (key :: rest) entries =
      (Value.resolve ⟨vars, entries⟩ key (rawText entries key)).bind fun value =>
        resolveEntries vars rest (entries.set key value) := by
  rw [resolveEntries, if_neg absent]

theorem resolveEntries_of_plain {vars : Variables} {key : String} (text : String)
    {entries : Fields} (absent : key ∉ vars) (raw : rawText entries key = text)
    (plain : '$' ∉ text.toList) (rest : List String) :
    resolveEntries vars (key :: rest) entries =
      resolveEntries vars rest (entries.set key (Value.typed text)) := by
  rw [resolveEntries_of_not_mem absent, raw, (Value.plain_of_no_dollar plain).resolve]
  rfl

theorem value_resolveKeys (vars : Variables) (keys : List String) (entries : Fields)
    (session : Session) :
    (resolveKeys vars keys entries).value session =
      (resolveEntries vars keys entries).mapError .cyclicReference := by
  induction keys generalizing entries session with
  | nil => rfl
  | cons key rest ih =>
    rw [resolveKeys, resolveEntries]
    by_cases present : key ∈ vars
    next =>
      rw [Std.ExtTreeMap.getElem?_eq_some_getElem present, if_pos present]
      simp only
      split <;> simp [ih, Except.bind]
    next =>
      rw [Std.ExtTreeMap.getElem?_eq_none present, if_neg present]
      simp only [rawText]
      cases Value.resolve ⟨vars, entries⟩ key (((entries.get? key).map Json.render).getD "") with
      | ok value => exact ih _ _
      | error chain => rfl

theorem resolveKeys_quiet (vars : Variables) (keys : List String) (entries : Fields) :
    (resolveKeys vars keys entries).Quiet := by
  induction keys generalizing entries with
  | nil => exact fun _ => rfl
  | cons key rest ih =>
    intro session
    rw [resolveKeys]
    cases vars[key]? with
    | some current =>
      simp only
      split <;> simp [ih entries _]
    | none =>
      simp only
      split
      · exact ih _ session
      · rfl

theorem resolveEntries_keys {vars : Variables} {keys : List String} {entries resolved : Fields}
    (known : ∀ key ∈ keys, key ∈ entries.keys)
    (found : resolveEntries vars keys entries = .ok resolved) : resolved.keys = entries.keys := by
  induction keys generalizing entries with
  | nil =>
    cases found
    rfl
  | cons key rest ih =>
    have here := known key (by simp)
    have later : ∀ key ∈ rest, key ∈ entries.keys := fun key member => known key (by simp [member])
    rw [resolveEntries] at found
    split at found
    next => exact ih later found
    next =>
      obtain ⟨value, _, found⟩ := bind_eq_ok_iff.mp found
      have same := Fields.keys_set_of_mem here value
      rw [← same]
      exact ih (same ▸ later) found

theorem resolveEntries_append (vars : Variables) (earlier later : List String)
    (entries : Fields) :
    resolveEntries vars (earlier ++ later) entries =
      (resolveEntries vars earlier entries).bind (resolveEntries vars later) := by
  induction earlier generalizing entries with
  | nil => rfl
  | cons key rest ih =>
    rw [List.cons_append]
    by_cases present : key ∈ vars
    next => rw [resolveEntries_of_mem present, resolveEntries_of_mem present, ih]
    next =>
      rw [resolveEntries_of_not_mem present, resolveEntries_of_not_mem present]
      cases Value.resolve ⟨vars, entries⟩ key (rawText entries key) with
      | ok value => exact ih _
      | error chain => rfl

theorem resolveEntries_get?_of_not_mem {vars : Variables} {keys : List String}
    {entries resolved : Fields} {key : String} (outside : key ∉ keys)
    (found : resolveEntries vars keys entries = .ok resolved) :
    resolved.get? key = entries.get? key := by
  induction keys generalizing entries with
  | nil =>
    cases found
    rfl
  | cons other rest ih =>
    simp only [List.mem_cons, not_or] at outside
    rw [resolveEntries] at found
    split at found
    next => exact ih outside.2 found
    next =>
      obtain ⟨value, _, found⟩ := bind_eq_ok_iff.mp found
      rw [ih outside.2 found, Fields.get?_set, if_neg outside.1]

theorem resolveEntries_reached {vars : Variables} {earlier later : List String}
    {entries turn resolved : Fields} (distinct : (earlier ++ later).Nodup)
    (reached : resolveEntries vars earlier entries = .ok turn)
    (found : resolveEntries vars (earlier ++ later) entries = .ok resolved) :
    resolveEntries vars later turn = .ok resolved ∧
      ∀ key ∈ later, turn.get? key = entries.get? key := by
  rw [resolveEntries_append, reached] at found
  refine ⟨found, fun key member => ?_⟩
  have unlisted : key ∉ earlier := fun early =>
    (List.nodup_append.mp distinct).2.2 key early key member rfl
  exact resolveEntries_get?_of_not_mem unlisted reached

theorem resolveEntries_of_unroll {vars : Variables} {key raw text : String} {entries : Fields}
    (absent : key ∉ vars) (field : entries.get? key = some (.str raw))
    (ends : Value.unroll ⟨vars, entries⟩ raw = some text) (rest : List String) :
    resolveEntries vars (key :: rest) entries =
      resolveEntries vars rest (entries.set key (Value.typed text)) := by
  have resolves := (Value.resolve_eq_ok_iff ⟨vars, entries⟩ absent field).mpr ⟨text, ends, rfl⟩
  rw [resolveEntries_of_not_mem absent, rawText_of_field field, resolves]
  rfl

theorem resolveEntries_cons_eq_ok {vars : Variables} {key raw : String} {rest : List String}
    {entries resolved : Fields} (absent : key ∉ vars) (field : entries.get? key = some (.str raw))
    (found : resolveEntries vars (key :: rest) entries = .ok resolved) :
    ∃ text, Value.unroll ⟨vars, entries⟩ raw = some text ∧
      resolveEntries vars rest (entries.set key (Value.typed text)) = .ok resolved := by
  rw [resolveEntries_of_not_mem absent, rawText_of_field field] at found
  obtain ⟨value, resolves, found⟩ := bind_eq_ok_iff.mp found
  obtain ⟨text, ends, rfl⟩ :=
    (Value.resolve_eq_ok_iff ⟨vars, entries⟩ absent field).mp resolves
  exact ⟨text, ends, found⟩

theorem resolveEntries_turn {vars : Variables} {keys : List String} {entries resolved : Fields}
    {key : String} (distinct : keys.Nodup) (member : key ∈ keys) (absent : key ∉ vars)
    (found : resolveEntries vars keys entries = .ok resolved) :
    ∃ earlier later turn value, keys = earlier ++ key :: later ∧
      resolveEntries vars earlier entries = .ok turn ∧
      Value.resolve ⟨vars, turn⟩ key (rawText entries key) = .ok value ∧
      resolved.get? key = some value := by
  obtain ⟨earlier, later, rfl⟩ := List.append_of_mem member
  obtain ⟨turn, reached, _⟩ := bind_eq_ok_iff.mp
    ((resolveEntries_append vars earlier (key :: later) entries).symm.trans found)
  obtain ⟨rest, kept⟩ := resolveEntries_reached distinct reached found
  rw [resolveEntries_of_not_mem absent, rawText, kept key (by simp)] at rest
  obtain ⟨value, resolves, rest⟩ := bind_eq_ok_iff.mp rest
  refine ⟨earlier, later, turn, value, rfl, reached, resolves, ?_⟩
  have unlisted := (List.nodup_cons.mp (List.nodup_append.mp distinct).2.1).1
  rw [resolveEntries_get?_of_not_mem unlisted rest, Fields.get?_set_self]

theorem resolveEntries_get?_of_mem {vars : Variables} {keys : List String}
    {entries resolved : Fields} {key : String} (shadowed : key ∈ vars)
    (found : resolveEntries vars keys entries = .ok resolved) :
    resolved.get? key = entries.get? key := by
  induction keys generalizing entries with
  | nil =>
    cases found
    rfl
  | cons other rest ih =>
    rw [resolveEntries] at found
    split at found
    next => exact ih found
    next absent =>
      obtain ⟨value, _, found⟩ := bind_eq_ok_iff.mp found
      have differ : key ≠ other := fun same => absent (same ▸ shadowed)
      rw [ih found, Fields.get?_set, if_neg differ]

end LayeredEnv.Loading
