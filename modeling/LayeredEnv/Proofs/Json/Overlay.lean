import LayeredEnv.Proofs.Json.Path

set_option autoImplicit false

namespace LayeredEnv

namespace Overlay

def skips (rule : Overlay) : Json → Bool
  | .null => !rule.nulls
  | _ => false

def Covers (rule : Overlay) (value : Json) : Prop :=
  value.fields? = none ∧ rule.skips value = false

def placed (rule : Overlay) (below : Option Json) (above : Json) : Json :=
  match above, rule.arrays with
  | .arr upper, .append => .arr ((below.bind Json.items?).getD [] ++ upper)
  | .arr upper, .combine combination => .arr (combination (below.bind Json.items?) upper)
  | above, _ => above

def laid (rule : Overlay) (lower upper : Option Json) : Option Json :=
  match upper with
  | none => lower
  | some above => (rule.value? lower above).or lower

variable (rule : Overlay)

theorem value?_eq_none_iff (lower : Option Json) (above : Json) :
    rule.value? lower above = none ↔ rule.skips above = true := by
  cases above <;> simp [value?, skips]

theorem laid_of_skips (lower : Option Json) {above : Json} (skipped : rule.skips above = true) :
    rule.laid lower (some above) = lower := by
  rw [laid, (rule.value?_eq_none_iff lower above).mpr skipped, Option.none_or]

theorem laid_obj (lower : Option Json) (upper : Fields) :
    rule.laid lower (some (.obj upper)) =
      some (.obj (rule.fields (Json.fieldsOf lower) upper)) := by
  rw [laid, value?, Option.some_or, Json.fieldsOf]

theorem laid_of_covers (lower : Option Json) {above : Json} (covers : rule.Covers above) :
    rule.laid lower (some above) = some (rule.placed lower above) := by
  obtain ⟨plain, counts⟩ := covers
  cases above with
  | null => simp_all [laid, value?, skips, placed]
  | obj fields => cases plain
  | arr items => cases arrays : rule.arrays <;> simp [laid, value?, placed, Overlay.items, arrays]
  | _ => simp [laid, value?, placed]

theorem placed_fields? (below : Option Json) {above : Json} (plain : above.fields? = none) :
    (rule.placed below above).fields? = none := by
  cases above with
  | arr items => cases arrays : rule.arrays <;> simp [placed, Json.fields?, arrays]
  | obj fields => cases plain
  | _ => simp [placed, Json.fields?]

theorem get?_fields {upper : Fields} (distinct : upper.keys.Nodup) (lower : Fields) (key : String) :
    (rule.fields lower upper).get? key = rule.laid (lower.get? key) (upper.get? key) := by
  induction upper generalizing lower with
  | nil => rfl
  | cons entry rest ih =>
    obtain ⟨name, above⟩ := entry
    simp only [Fields.keys, List.map_cons, List.nodup_cons] at distinct
    have later := ih distinct.2
    rw [fields]
    by_cases same : name = key
    next =>
      subst same
      have absent := Fields.get?_eq_none_of_not_mem distinct.1
      rw [Fields.get?, if_pos rfl, laid]
      cases value : rule.value? (lower.get? name) above with
      | none => rw [later, absent, laid, Option.none_or]
      | some value => rw [later, absent, laid, Fields.get?_set_self, Option.some_or]
    next =>
      rw [Fields.get?, if_neg same]
      cases value : rule.value? (lower.get? name) above with
      | none => exact later lower
      | some value => rw [later, Fields.get?_set_of_ne same]

def fresh (keys : List String) (upper : Fields) : Fields :=
  upper.filter fun entry => entry.1 ∉ keys && !rule.skips entry.2

theorem fresh_cons_of_skips {above : Json} (skipped : rule.skips above = true) (name : String)
    (keys : List String) (rest : Fields) :
    rule.fresh keys ((name, above) :: rest) = rule.fresh keys rest := by
  simp [fresh, skipped]

theorem fresh_cons_of_mem {name : String} {keys : List String} (present : name ∈ keys)
    (above : Json) (rest : Fields) :
    rule.fresh keys ((name, above) :: rest) = rule.fresh keys rest := by
  simp [fresh, present]

theorem fresh_cons_of_not_mem {name : String} {keys : List String} (absent : name ∉ keys)
    {above : Json} (counts : rule.skips above = false) (rest : Fields) :
    rule.fresh keys ((name, above) :: rest) = (name, above) :: rule.fresh keys rest := by
  simp [fresh, absent, counts]

theorem fresh_append_of_not_mem {name : String} {rest : Fields} (absent : name ∉ rest.keys)
    (keys : List String) : rule.fresh (keys ++ [name]) rest = rule.fresh keys rest := by
  refine List.filter_congr fun entry member => ?_
  have differ : entry.1 ≠ name := fun same => absent (same ▸ List.mem_map_of_mem member)
  simp [differ]

theorem keys_fields {upper : Fields} (distinct : upper.keys.Nodup) (lower : Fields) :
    (rule.fields lower upper).keys = lower.keys ++ (rule.fresh lower.keys upper).keys := by
  induction upper generalizing lower with
  | nil => simp [fields, fresh, Fields.keys]
  | cons entry rest ih =>
    obtain ⟨name, above⟩ := entry
    simp only [Fields.keys, List.map_cons, List.nodup_cons] at distinct
    have later := ih distinct.2
    rw [fields]
    cases value : rule.value? (lower.get? name) above with
    | none =>
      have skipped := (rule.value?_eq_none_iff _ _).mp value
      rw [fresh_cons_of_skips rule skipped]
      exact later lower
    | some value =>
      have counts : rule.skips above = false := by
        rw [← Bool.not_eq_true, ← rule.value?_eq_none_iff (lower.get? name), value]
        exact Option.some_ne_none _
      simp only
      -- A key that is there keeps its place; a new one stands behind those of the lower object.
      by_cases present : name ∈ lower.keys
      next =>
        rw [later, Fields.keys_set_of_mem present, fresh_cons_of_mem rule present]
      next =>
        rw [later, Fields.keys_set_of_not_mem present, fresh_cons_of_not_mem rule present counts,
          fresh_append_of_not_mem rule distinct.1]
        simp [Fields.keys]

/-- No value on the way hides what the lower object has at the path. -/
def Clear (upper : Option Json) (path : List String) : Prop :=
  ∀ before key after, path = before ++ key :: after → ∀ above,
    upper.bind (Json.at? before) = some above → ¬ rule.Covers above

theorem laid_child (lower : Option Json) {upper : Option Json} (tidy : ∀ above ∈ upper, above.Tidy)
    (clear : ∀ above ∈ upper, ¬ rule.Covers above) (key : String) :
    (rule.laid lower upper).bind (Json.child? key) =
      rule.laid (lower.bind (Json.child? key)) (upper.bind (Json.child? key)) := by
  cases upper with
  | none => rfl
  | some above =>
    cases plain : above.fields? with
    | none =>
      have skipped : rule.skips above = true := by
        rw [← Bool.not_eq_false]
        exact fun counts => clear above rfl ⟨plain, counts⟩
      rw [laid_of_skips rule lower skipped, Option.bind_some, Json.child?_of_no_fields plain, laid]
    | some upper =>
      obtain rfl := Json.fields?_eq_some_iff.mp plain
      have distinct := (tidy _ rfl).keys
      rw [laid_obj, Option.bind_some, Json.child?_obj, get?_fields rule distinct,
        Json.get?_fieldsOf]
      rfl

theorem tidy_child {upper : Option Json} (tidy : ∀ above ∈ upper, above.Tidy) (key : String) :
    ∀ inner ∈ upper.bind (Json.child? key), inner.Tidy := by
  intro inner found
  obtain ⟨above, same, found⟩ := Option.bind_eq_some_iff.mp found
  exact (tidy above same).child found

theorem laid_at? (lower : Option Json) {upper : Option Json} (tidy : ∀ above ∈ upper, above.Tidy)
    {path : List String} (clear : rule.Clear upper path) :
    (rule.laid lower upper).bind (Json.at? path) =
      rule.laid (lower.bind (Json.at? path)) (upper.bind (Json.at? path)) := by
  induction path generalizing lower upper with
  | nil => simp only [Json.bind_at?_nil]
  | cons key rest ih =>
    have here : ∀ above ∈ upper, ¬ rule.Covers above := by
      intro above same
      exact clear [] key rest rfl above ((Json.bind_at?_nil upper).trans same)
    have later : rule.Clear (upper.bind (Json.child? key)) rest := by
      intro before next after same above found
      rw [← Json.bind_at?_cons] at found
      exact clear (key :: before) next after (by rw [same, List.cons_append]) above found
    simp only [Json.bind_at?_cons]
    rw [laid_child rule lower tidy here, ih _ (tidy_child tidy key) later]

theorem laid_at?_of_covers (lower : Option Json) {upper : Option Json}
    (tidy : ∀ above ∈ upper, above.Tidy) {before : List String} {above : Json}
    (found : upper.bind (Json.at? before) = some above)
    (covers : rule.Covers above) (key : String) (after : List String) :
    (rule.laid lower upper).bind (Json.at? (before ++ key :: after)) = none := by
  induction before generalizing lower upper with
  | nil =>
    -- The value has taken the place, and it is no object.
    rw [Json.bind_at?_nil] at found
    subst found
    rw [laid_of_covers rule lower covers, List.nil_append, Option.bind_some,
      Json.at?_of_no_fields (rule.placed_fields? lower covers.1)]
  | cons first rest ih =>
    -- The value stands deeper down, so what stands here is an object.
    have here : ∀ above ∈ upper, ¬ rule.Covers above := by
      intro outer same hides
      rw [Option.mem_def.mp same, Option.bind_some, Json.at?_of_no_fields hides.1] at found
      cases found
    rw [Json.bind_at?_cons] at found
    rw [List.cons_append, Json.bind_at?_cons, laid_child rule lower tidy here]
    exact ih _ (tidy_child tidy first) found

def FromUpper (lower upper : Json) (path : List String) (value : Json) : Prop :=
  ∃ above, upper.at? path = some above ∧ rule.Covers above ∧
    value = rule.placed (lower.at? path) above

/-- The lower object has the value at the path, where the upper one has nothing or a skipped null,
and on the way there the upper one has no more than objects. -/
def FromLower (lower upper : Json) (path : List String) (value : Json) : Prop :=
  lower.at? path = some value ∧ value.fields? = none ∧
    (∀ above, upper.at? path = some above → rule.skips above = true) ∧
    ∀ before key after, path = before ++ key :: after → before ≠ [] → ∀ above,
      upper.at? before = some above → rule.skips above = true ∨ ∃ fields, above = .obj fields

theorem not_covers_iff {above : Json} :
    ¬ rule.Covers above ↔ rule.skips above = true ∨ ∃ fields, above = .obj fields := by
  cases above <;> simp [Covers, skips, Json.fields?]

theorem laid_eq_some {lower upper : Option Json} {value : Json}
    (found : rule.laid lower upper = some value) :
    (∀ above, upper = some above → rule.skips above = true) ∧ lower = some value ∨
    (∃ above, upper = some above ∧ rule.Covers above ∧ value = rule.placed lower above) ∨
    ∃ fields, upper = some (.obj fields) ∧
      value = .obj (rule.fields (Json.fieldsOf lower) fields) := by
  cases upper with
  | none =>
    refine .inl ⟨fun above same => ?_, found⟩
    cases same
  | some above =>
    by_cases covers : rule.Covers above
    next =>
      rw [laid_of_covers rule lower covers] at found
      cases found
      exact .inr (.inl ⟨above, rfl, covers, rfl⟩)
    next =>
      rcases rule.not_covers_iff.mp covers with skipped | ⟨fields, rfl⟩
      · rw [laid_of_skips rule lower skipped] at found
        refine .inl ⟨fun other same => ?_, found⟩
        cases same
        exact skipped
      · rw [laid_obj] at found
        cases found
        exact .inr (.inr ⟨fields, rfl, rfl⟩)

theorem laid_keys {lower upper : Option Json} {merged : Fields}
    (distinct : ∀ fields : Fields, upper = some (.obj fields) → fields.keys.Nodup)
    (found : rule.laid lower upper = some (.obj merged)) :
    merged.keys = (Json.fieldsOf lower).keys ++
      (rule.fresh (Json.fieldsOf lower).keys (Json.fieldsOf upper)).keys := by
  rcases rule.laid_eq_some found with ⟨nothing, rfl⟩ | ⟨above, _, covers, same⟩ |
    ⟨fields, rfl, same⟩
  · -- What is skipped is no object, so the upper one has no fields here.
    have none : Json.fieldsOf upper = [] := by
      cases upper with
      | none => rfl
      | some above =>
        have skipped := nothing above rfl
        cases above <;> simp_all [skips, Json.fieldsOf, Json.fields?]
    rw [none]
    simp [fresh, Fields.keys, Json.fieldsOf, Json.fields?]
  · have plain := rule.placed_fields? lower covers.1
    rw [← same] at plain
    cases plain
  · cases same
    exact rule.keys_fields (distinct fields rfl) _

theorem clear_of_at? {upper value : Json} {path : List String}
    (found : upper.at? path = some value) : rule.Clear (some upper) path := by
  rintro before key after rfl above reached ⟨plain, _⟩
  have here : upper.at? before = some above := reached
  rw [Json.at?_append, here, Option.bind_some, Json.at?_of_no_fields plain] at found
  cases found

section

variable {rule : Overlay} {lower upper : Fields} {path : List String} {value : Json}

theorem FromLower.clear (kept : rule.FromLower (.obj lower) (.obj upper) path value) :
    rule.Clear (some (.obj upper)) path := by
  obtain ⟨_, _, _, way⟩ := kept
  intro before key after same above reached
  by_cases start : before = []
  next =>
    subst start
    cases reached
    exact rule.not_covers_iff.mpr (.inr ⟨upper, rfl⟩)
  next => exact rule.not_covers_iff.mpr (way before key after same start above reached)

theorem some_values (lower upper : Fields) :
    some (rule.values (.obj lower) (.obj upper)) =
      rule.laid (some (.obj lower)) (some (.obj upper)) :=
  (rule.laid_obj (some (.obj lower)) upper).symm

theorem tidy_some {json : Json} (tidy : json.Tidy) : ∀ above ∈ some json, above.Tidy := by
  intro above same
  cases same
  exact tidy

theorem values_at? (tidy : (Json.obj upper).Tidy) (clear : rule.Clear (some (.obj upper)) path) :
    (rule.values (.obj lower) (.obj upper)).at? path =
      rule.laid ((Json.obj lower).at? path) ((Json.obj upper).at? path) := by
  have whole := laid_at? rule (some (.obj lower)) (tidy_some tidy) clear
  rwa [← some_values] at whole

theorem clear_of_values_at? (tidy : (Json.obj upper).Tidy)
    (found : (rule.values (.obj lower) (.obj upper)).at? path = some value) :
    rule.Clear (some (.obj upper)) path := by
  rintro before key after rfl above reached covers
  have hidden := laid_at?_of_covers rule (some (.obj lower)) (tidy_some tidy) reached covers
    key after
  rw [← some_values, Option.bind_some, found] at hidden
  cases hidden

end

/-- Nothing is lost and nothing invented where two objects are laid over each other: each value that
is no object comes from one of them, and at every level the keys of the lower object come first, in
their order, and then the new ones of the upper object in theirs. -/
theorem values_at_path (lower upper : Fields) (tidy : (Json.obj upper).Tidy) :
    (∀ path value,
      (rule.values (.obj lower) (.obj upper)).at? path = some value ∧ value.fields? = none ↔
        rule.FromUpper (.obj lower) (.obj upper) path value ∨
        rule.FromLower (.obj lower) (.obj upper) path value) ∧
    ∀ (path : List String) (merged : Fields),
      (rule.values (.obj lower) (.obj upper)).at? path = some (.obj merged) →
      merged.keys = (Json.fieldsOf ((Json.obj lower).at? path)).keys ++
        (rule.fresh (Json.fieldsOf ((Json.obj lower).at? path)).keys
          (Json.fieldsOf ((Json.obj upper).at? path))).keys := by
  refine ⟨fun path value => ⟨?_, ?_⟩, ?_⟩
  · rintro ⟨found, plain⟩
    have clear := clear_of_values_at? tidy found
    rw [values_at? tidy clear] at found
    rcases rule.laid_eq_some found with ⟨nothing, below⟩ | placed | ⟨fields, _, rfl⟩
    · refine .inr ⟨below, plain, nothing, fun before key after same _ above reached => ?_⟩
      exact rule.not_covers_iff.mp (clear before key after same above reached)
    · exact .inl placed
    · cases plain
  · rintro (⟨above, reached, covers, rfl⟩ | kept)
    · rw [values_at? tidy (rule.clear_of_at? reached), reached, laid_of_covers rule _ covers]
      exact ⟨rfl, rule.placed_fields? _ covers.1⟩
    · rw [values_at? tidy kept.clear]
      obtain ⟨below, plain, nothing, _⟩ := kept
      refine ⟨?_, plain⟩
      cases reached : (Json.obj upper).at? path with
      | none => rw [laid, below]
      | some above => rw [laid_of_skips rule _ (nothing above reached), below]
  · intro path merged found
    rw [values_at? tidy (clear_of_values_at? tidy found)] at found
    exact rule.laid_keys (fun fields reached => tidy path fields reached) found

def nestedLower : Fields :=
  [("x", .obj [("list", .arr [.str "a"]), ("keep", .str "k"), ("gone", .obj [("deep", .null)])]),
    ("z", .bool true)]

def nestedUpper : Fields :=
  [("new", .null),
    ("x", .obj [("more", .str "m"), ("list", .arr [.str "b"]), ("keep", .null), ("gone", .null),
      ("z", .null)])]

theorem tidy_nestedUpper : (Json.obj nestedUpper).Tidy := by
  have inner : (Json.obj [("more", .str "m"), ("list", .arr [.str "b"]), ("keep", .null),
      ("gone", .null), ("z", .null)]).Tidy := by
    refine Json.tidy_obj (by decide) fun entry member => Json.tidy_of_no_fields ?_
    simp only [List.mem_cons, List.not_mem_nil, or_false] at member
    rcases member with rfl | rfl | rfl | rfl | rfl <;> rfl
  refine Json.tidy_obj (by decide) fun entry member => ?_
  simp only [nestedUpper, List.mem_cons, List.not_mem_nil, or_false] at member
  rcases member with rfl | rfl
  · exact Json.tidy_of_no_fields rfl
  · exact inner

-- An array from both, a text from below a skipped null, and the keys in order.
theorem nested_objects_combine :
    (Json.obj nestedUpper).Tidy ∧
    (values ⟨.append, false⟩ (.obj nestedLower) (.obj nestedUpper)).at? ["x", "list"] =
      some (.arr [.str "a", .str "b"]) ∧
    (values ⟨.append, false⟩ (.obj nestedLower) (.obj nestedUpper)).at? ["x", "keep"] =
      some (.str "k") ∧
    ∃ merged : Fields,
      (values ⟨.append, false⟩ (.obj nestedLower) (.obj nestedUpper)).at? ["x"] =
        some (.obj merged) ∧ merged.keys = ["list", "keep", "gone", "more"] := by
  obtain ⟨arises, ordered⟩ :=
    values_at_path ⟨.append, false⟩ nestedLower nestedUpper tidy_nestedUpper
  refine ⟨tidy_nestedUpper, ?_, ?_, _, rfl, (ordered ["x"] _ rfl).trans rfl⟩
  · exact ((arises _ _).mpr (.inl ⟨.arr [.str "b"], rfl, ⟨rfl, rfl⟩, rfl⟩)).1
  · refine ((arises _ _).mpr (.inr ⟨rfl, rfl, fun above reached => ?_, ?_⟩)).1
    · cases reached
      rfl
    · intro before key after same start above reached
      match before with
      | [] => exact absurd rfl start
      | [first] =>
        cases same
        cases reached
        exact .inr ⟨_, rfl⟩
      | first :: second :: rest => simp at same

end Overlay
end LayeredEnv
