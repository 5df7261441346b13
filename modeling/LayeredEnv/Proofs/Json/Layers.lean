import LayeredEnv.Proofs.Json.Overlay
import LayeredEnv.Proofs.Json.Within

set_option autoImplicit false

namespace LayeredEnv

namespace Json

inductive Kind
  | object
  | array
  | scalar
deriving DecidableEq, Repr

def kind : Json → Kind
  | .obj _ => .object
  | .arr _ => .array
  | _ => .scalar

def NullFree (json : Json) : Prop := ∀ path, json.at? path ≠ some .null

def SameKinds (first second : Json) : Prop :=
  ∀ path value other, first.at? path = some value → second.at? path = some other →
    value.kind = other.kind

theorem NullFree.ne_null {json : Json} (nullFree : json.NullFree) : json ≠ .null :=
  fun same => nullFree [] (congrArg some same)

theorem NullFree.child {json inner : Json} {key : String} (nullFree : json.NullFree)
    (found : json.child? key = some inner) : inner.NullFree := by
  intro path reached
  refine nullFree (key :: path) ?_
  rw [at?_cons, found, Option.bind_some, reached]

theorem SameKinds.kind_eq {first second : Json} (same : first.SameKinds second) :
    first.kind = second.kind :=
  same [] first second rfl rfl

theorem SameKinds.child {first second value other : Json} {key : String}
    (same : first.SameKinds second) (found : first.child? key = some value)
    (below : second.child? key = some other) : value.SameKinds other := by
  intro path inner deeper reached there
  refine same (key :: path) inner deeper ?_ ?_
  · rw [at?_cons, found, Option.bind_some, reached]
  · rw [at?_cons, below, Option.bind_some, there]

theorem nullFree_of_no_fields {json : Json} (plain : json.fields? = none) (real : json ≠ .null) :
    json.NullFree := by
  intro path reached
  cases path with
  | nil => exact real (Option.some.inj reached)
  | cons key rest =>
    rw [at?_of_no_fields plain] at reached
    cases reached

theorem nullFree_obj {fields : Fields} (inner : ∀ entry ∈ fields, entry.2.NullFree) :
    NullFree (.obj fields) := by
  intro path reached
  cases path with
  | nil => cases reached
  | cons key rest =>
    rw [at?_cons, child?_obj, Option.bind_eq_some_iff] at reached
    obtain ⟨value, found, reached⟩ := reached
    exact inner _ (Fields.mem_of_get? found) rest reached

theorem sameKinds_of_no_fields {first second : Json} (plain : first.fields? = none)
    (kind : first.kind = second.kind) : first.SameKinds second := by
  intro path value other reached there
  cases path with
  | nil =>
    cases reached
    cases there
    exact kind
  | cons key rest =>
    rw [at?_of_no_fields plain] at reached
    cases reached

theorem sameKinds_obj {lower upper : Fields}
    (inner : ∀ entry ∈ lower, ∀ other ∈ upper, entry.1 = other.1 → entry.2.SameKinds other.2) :
    SameKinds (.obj lower) (.obj upper) := by
  intro path value other reached there
  cases path with
  | nil =>
    cases reached
    cases there
    rfl
  | cons key rest =>
    rw [at?_cons, child?_obj, Option.bind_eq_some_iff] at reached there
    obtain ⟨below, found, reached⟩ := reached
    obtain ⟨above, present, there⟩ := there
    exact inner _ (Fields.mem_of_get? found) _ (Fields.mem_of_get? present) rfl rest _ _ reached
      there

theorem fieldwise {motive : Json → Prop}
    (plain : ∀ json, json.fields? = none → motive json)
    (object : ∀ fields : Fields, (∀ key value, fields.get? key = some value → motive value) →
      motive (.obj fields)) :
    ∀ json, motive json := by
  intro json
  induction json using nested with
  | plain json _ noFields => exact plain json noFields
  | array items _ => exact plain (.arr items) rfl
  | object fields ih =>
    exact object fields fun key value found => ih (key, value) (Fields.mem_of_get? found)

end Json

namespace Overlay

variable (rule : Overlay)

theorem skips_eq_false {json : Json} (real : json ≠ .null) : rule.skips json = false := by
  cases json <;> simp_all [skips]

theorem laid_ne_null {lower upper : Option Json} (below : lower ≠ some .null)
    (above : upper ≠ some .null) : rule.laid lower upper ≠ some .null := by
  intro found
  rcases rule.laid_eq_some found with ⟨_, same⟩ | ⟨value, rfl, covers, same⟩ | ⟨_, _, same⟩
  · exact below same
  · cases value with
    | null => exact above rfl
    | arr items => cases arrays : rule.arrays <;> simp [placed, arrays] at same
    | _ => simp [placed] at same
  · cases same

theorem keys_fields_nodup {lower : Fields} (distinct : lower.keys.Nodup) (upper : Fields) :
    (rule.fields lower upper).keys.Nodup := by
  induction upper generalizing lower with
  | nil => exact distinct
  | cons entry rest ih =>
    obtain ⟨name, above⟩ := entry
    rw [fields]
    cases rule.value? (lower.get? name) above with
    | none => exact ih distinct
    | some value => exact ih (Fields.keys_set_nodup distinct name value)

theorem keys_fields_of_real {upper : Fields} (distinct : upper.keys.Nodup)
    (real : ∀ key, upper.get? key ≠ some .null) (lower : Fields) :
    (rule.fields lower upper).keys = lower.keys ++ upper.keys.filter (· ∉ lower.keys) := by
  rw [keys_fields rule distinct, fresh]
  refine congrArg (lower.keys ++ ·) ?_
  rw [Fields.keys, Fields.keys, Fields.keys, List.filter_map]
  refine congrArg (List.map Prod.fst) ?_
  refine List.filter_congr fun entry member => ?_
  have counts : rule.skips entry.2 = false := by
    refine rule.skips_eq_false fun null => real entry.1 ?_
    rw [Fields.get?_of_mem distinct member, null]
  simp [counts]

structure Agreeing (lower middle upper : Option Json) : Prop where
  tidy : ∀ layer ∈ [lower, middle, upper], ∀ json ∈ layer, json.Tidy
  nullFree : ∀ layer ∈ [lower, middle, upper], ∀ json ∈ layer, json.NullFree
  kinds : [lower, middle, upper].Pairwise fun below above =>
    ∀ value ∈ below, ∀ other ∈ above, value.SameKinds other

theorem Agreeing.child {lower middle upper : Option Json} (agree : Agreeing lower middle upper)
    (key : String) :
    Agreeing (lower.bind (Json.child? key)) (middle.bind (Json.child? key))
      (upper.bind (Json.child? key)) := by
  have layers : [lower.bind (Json.child? key), middle.bind (Json.child? key),
      upper.bind (Json.child? key)] =
      [lower, middle, upper].map fun layer => layer.bind (Json.child? key) := rfl
  constructor
  · rw [layers, List.forall_mem_map]
    exact fun layer member => tidy_child (agree.tidy layer member) key
  · rw [layers, List.forall_mem_map]
    intro layer member json found
    obtain ⟨outer, same, found⟩ := Option.bind_eq_some_iff.mp found
    exact (agree.nullFree layer member outer same).child found
  · rw [layers, List.pairwise_map]
    refine agree.kinds.imp fun same value found other below => ?_
    obtain ⟨outer, here, found⟩ := Option.bind_eq_some_iff.mp found
    obtain ⟨inner, there, below⟩ := Option.bind_eq_some_iff.mp below
    exact (same outer here inner there).child found below

section

variable {lower middle upper : Option Json}

theorem Agreeing.real (agree : Agreeing lower middle upper) {layer : Option Json}
    (member : layer ∈ [lower, middle, upper]) : layer ≠ some .null :=
  fun null => (agree.nullFree layer member .null null).ne_null rfl

theorem Agreeing.kind_eq {above : Json} (agree : Agreeing lower middle (some above)) :
    ∀ below ∈ middle, below.kind = above.kind := by
  intro below here
  have kinds := agree.kinds
  simp only [List.pairwise_cons, List.mem_singleton] at kinds
  exact (kinds.2.1 _ rfl below here above rfl).kind_eq

def itemsOf (json : Option Json) : List Json := (json.bind Json.items?).getD []

theorem itemsOf_laid (append : rule.arrays = .append)
    (array : ∀ below ∈ middle, below.kind = .array) :
    itemsOf (rule.laid lower middle) = itemsOf lower ++ itemsOf middle := by
  cases middle with
  | none => exact (List.append_nil _).symm
  | some below =>
    have kind := array below rfl
    cases below with
    | arr items => simp [laid, value?, Overlay.items, append, itemsOf, Json.items?]
    | _ => cases kind

theorem fieldsOf_laid (object : ∀ below ∈ middle, below.kind = .object) :
    Json.fieldsOf (rule.laid lower middle) =
      rule.fields (Json.fieldsOf lower) (Json.fieldsOf middle) := by
  cases middle with
  | none => rfl
  | some below =>
    have kind := object below rfl
    cases below with
    | obj fields => rw [laid_obj]; rfl
    | _ => cases kind

theorem placed_laid (arrays : rule.arrays = .replace ∨ rule.arrays = .append) {above : Json}
    (kinds : ∀ below ∈ middle, below.kind = above.kind) :
    rule.placed (rule.laid lower middle) above =
      rule.placed lower (rule.placed middle above) := by
  cases above with
  | arr items =>
    rcases arrays with replace | append
    · simp only [placed, replace]
    · have joined : itemsOf (rule.laid lower middle) = itemsOf lower ++ itemsOf middle :=
        rule.itemsOf_laid append kinds
      simp only [itemsOf] at joined
      simp only [placed, append, joined, List.append_assoc]
  | _ => rfl

theorem Covers.placed {above : Json} (covers : rule.Covers above) (below : Option Json) :
    rule.Covers (rule.placed below above) := by
  refine ⟨rule.placed_fields? below covers.1, ?_⟩
  cases above with
  | arr items => cases arrays : rule.arrays <;> simp [Overlay.placed, skips, arrays]
  | _ => exact covers.2

theorem fieldsOf_distinct {layer : Option Json} (tidy : ∀ json ∈ layer, json.Tidy) :
    (Json.fieldsOf layer).keys.Nodup := by
  cases layer with
  | none => exact List.nodup_nil
  | some json =>
    cases whole : json.fields? with
    | none => simp [Json.fieldsOf, whole, Fields.keys]
    | some fields =>
      obtain rfl := Json.fields?_eq_some_iff.mp whole
      exact (tidy _ rfl).keys

end

theorem keys_fields_fields {middle upper : Fields} (middleDistinct : middle.keys.Nodup)
    (upperDistinct : upper.keys.Nodup) (middleReal : ∀ key, middle.get? key ≠ some .null)
    (upperReal : ∀ key, upper.get? key ≠ some .null) (lower : Fields) :
    (rule.fields (rule.fields lower middle) upper).keys =
      (rule.fields lower (rule.fields middle upper)).keys := by
  have distinct := rule.keys_fields_nodup middleDistinct upper
  have real : ∀ key, (rule.fields middle upper).get? key ≠ some .null := by
    intro key
    rw [get?_fields rule upperDistinct]
    exact rule.laid_ne_null (middleReal key) (upperReal key)
  rw [keys_fields_of_real rule upperDistinct upperReal,
    keys_fields_of_real rule middleDistinct middleReal, keys_fields_of_real rule distinct real,
    keys_fields_of_real rule upperDistinct upperReal, List.filter_append, List.filter_filter,
    List.append_assoc]
  -- Left are the new keys of the upper layer, filtered by the layers below in either order.
  congr 2
  refine List.filter_congr fun key _ => ?_
  by_cases below : key ∈ lower.keys <;> simp [below]

theorem fields_fields {lower middle upper : Fields} (lowerDistinct : lower.keys.Nodup)
    (middleDistinct : middle.keys.Nodup) (upperDistinct : upper.keys.Nodup)
    (middleReal : ∀ key, middle.get? key ≠ some .null)
    (upperReal : ∀ key, upper.get? key ≠ some .null)
    (inner : ∀ key, rule.laid (rule.laid (lower.get? key) (middle.get? key)) (upper.get? key) =
      rule.laid (lower.get? key) (rule.laid (middle.get? key) (upper.get? key))) :
    rule.fields (rule.fields lower middle) upper =
      rule.fields lower (rule.fields middle upper) := by
  have distinct := rule.keys_fields_nodup middleDistinct upper
  refine Fields.eq_of_get? ?_ ?_ fun key => ?_
  · exact rule.keys_fields_nodup (rule.keys_fields_nodup lowerDistinct middle) upper
  · exact rule.keys_fields_fields middleDistinct upperDistinct middleReal upperReal lower
  · rw [get?_fields rule upperDistinct, get?_fields rule middleDistinct, get?_fields rule distinct,
      get?_fields rule upperDistinct]
    exact inner key

theorem laid_laid (arrays : rule.arrays = .replace ∨ rule.arrays = .append)
    {lower middle upper : Option Json} (agree : Agreeing lower middle upper) :
    rule.laid (rule.laid lower middle) upper = rule.laid lower (rule.laid middle upper) := by
  cases upper with
  | none => rfl
  | some above =>
    induction above using Json.fieldwise generalizing lower middle with
    | plain above whole =>
      -- What has no fields covers what is below it; only arrays may still join with it.
      have covers : rule.Covers above :=
        ⟨whole, rule.skips_eq_false fun null => agree.real (by simp) (congrArg some null)⟩
      rw [laid_of_covers rule _ covers, laid_of_covers rule _ covers,
        laid_of_covers rule _ (Covers.placed rule covers middle),
        placed_laid rule arrays agree.kind_eq]
    | object upper ih =>
      -- Field by field: the layers agree below each key, so the induction applies there.
      rw [laid_obj, laid_obj, laid_obj, fieldsOf_laid rule agree.kind_eq]
      refine congrArg (fun fields => some (Json.obj fields)) ?_
      have inner := fun key => agree.child key
      have tidy := agree.tidy
      refine rule.fields_fields (fieldsOf_distinct (tidy lower (by simp)))
        (fieldsOf_distinct (tidy middle (by simp))) (tidy _ (by simp) _ rfl).keys ?_ ?_ ?_
      · intro key
        rw [Json.get?_fieldsOf]
        exact (inner key).real (by simp)
      · intro key
        have real : (some (Json.obj upper)).bind (Json.child? key) ≠ some .null :=
          (inner key).real (by simp)
        exact real
      · intro key
        have agree := inner key
        simp only [Json.get?_fieldsOf, Option.bind_some, Json.child?_obj] at agree ⊢
        cases found : upper.get? key with
        | none => rfl
        | some value => exact ih key value found (found ▸ agree)

theorem values_values {rule : Overlay} (arrays : rule.arrays = .replace ∨ rule.arrays = .append)
    {lower middle upper : Fields}
    (tidy : ∀ layer ∈ [lower, middle, upper], (Json.obj layer).Tidy)
    (nullFree : ∀ layer ∈ [lower, middle, upper], (Json.obj layer).NullFree)
    (kinds : [lower, middle, upper].Pairwise fun below above =>
      (Json.obj below).SameKinds (.obj above)) :
    rule.values (rule.values (.obj lower) (.obj middle)) (.obj upper) =
      rule.values (.obj lower) (rule.values (.obj middle) (.obj upper)) := by
  have layers : [some (Json.obj lower), some (Json.obj middle), some (Json.obj upper)] =
      [lower, middle, upper].map fun layer => some (Json.obj layer) := rfl
  have agree : Agreeing (some (.obj lower)) (some (.obj middle)) (some (.obj upper)) := by
    constructor
    · rw [layers, List.forall_mem_map]
      exact fun layer member => tidy_some (tidy layer member)
    · rw [layers, List.forall_mem_map]
      intro layer member json same
      cases same
      exact nullFree layer member
    · rw [layers, List.pairwise_map]
      refine kinds.imp fun same value here other there => ?_
      cases here
      cases there
      exact same
  exact Option.some.inj (rule.laid_laid arrays agree)

def baseLayer : Fields :=
  [("db", .obj [("ports", .arr [.str "1"])]), ("mode", .str "dev")]

def siteLayer : Fields := [("mode", .str "test"), ("ports", .arr [])]

def ownLayer : Fields :=
  [("ports", .arr [.str "0"]), ("db", .obj [("ports", .arr [.str "2"]), ("user", .str "u")])]

theorem tidy_layers : ∀ layer ∈ [baseLayer, siteLayer, ownLayer], (Json.obj layer).Tidy := by
  have flat {fields : Fields} (distinct : fields.keys.Nodup)
      (plain : ∀ entry ∈ fields, entry.2.fields? = none) : (Json.obj fields).Tidy :=
    Json.tidy_obj distinct fun entry member => Json.tidy_of_no_fields (plain entry member)
  simp only [List.forall_mem_cons, List.not_mem_nil, false_imp_iff, implies_true, and_true]
  refine ⟨Json.tidy_obj (by decide) ?_, flat (by decide) (by decide),
    Json.tidy_obj (by decide) ?_⟩
  · exact List.forall_mem_cons.mpr ⟨flat (by decide) (by decide),
      List.forall_mem_singleton.mpr (Json.tidy_of_no_fields rfl)⟩
  · exact List.forall_mem_cons.mpr ⟨Json.tidy_of_no_fields rfl,
      List.forall_mem_singleton.mpr (flat (by decide) (by decide))⟩

theorem nullFree_layers :
    ∀ layer ∈ [baseLayer, siteLayer, ownLayer], (Json.obj layer).NullFree := by
  have flat {fields : Fields}
      (plain : ∀ entry ∈ fields, entry.2.fields? = none ∧ entry.2 ≠ .null) :
      (Json.obj fields).NullFree :=
    Json.nullFree_obj fun entry member =>
      Json.nullFree_of_no_fields (plain entry member).1 (plain entry member).2
  simp only [List.forall_mem_cons, List.not_mem_nil, false_imp_iff, implies_true, and_true]
  refine ⟨Json.nullFree_obj ?_, flat (by decide), Json.nullFree_obj ?_⟩
  · exact List.forall_mem_cons.mpr ⟨flat (by decide),
      List.forall_mem_singleton.mpr (Json.nullFree_of_no_fields rfl (by decide))⟩
  · exact List.forall_mem_cons.mpr ⟨Json.nullFree_of_no_fields rfl (by decide),
      List.forall_mem_singleton.mpr (flat (by decide))⟩

theorem sameKinds_layers :
    [baseLayer, siteLayer, ownLayer].Pairwise fun below above =>
      (Json.obj below).SameKinds (.obj above) := by
  have flat {lower upper : Fields} (plain : ∀ entry ∈ lower, ∀ other ∈ upper,
      entry.1 = other.1 → entry.2.fields? = none ∧ entry.2.kind = other.2.kind) :
      (Json.obj lower).SameKinds (.obj upper) :=
    Json.sameKinds_obj fun entry member other there same =>
      have found := plain entry member other there same
      Json.sameKinds_of_no_fields found.1 found.2
  simp only [List.pairwise_cons, List.forall_mem_cons, List.not_mem_nil, false_imp_iff,
    implies_true, and_true, List.Pairwise.nil]
  refine ⟨⟨flat (by decide), Json.sameKinds_obj ?_⟩, flat (by decide)⟩
  simp only [baseLayer, ownLayer, List.forall_mem_cons, List.not_mem_nil, false_imp_iff,
    implies_true, and_true]
  refine ⟨⟨fun same => absurd same (by decide), fun _ => flat (by decide)⟩,
    fun same => absurd same (by decide), fun same => absurd same (by decide)⟩

-- The arrays under one key in a row, and the keys where they first stand.
theorem three_layers_combine :
    (∀ layer ∈ [baseLayer, siteLayer, ownLayer], (Json.obj layer).Tidy) ∧
    (∀ layer ∈ [baseLayer, siteLayer, ownLayer], (Json.obj layer).NullFree) ∧
    ([baseLayer, siteLayer, ownLayer].Pairwise fun below above =>
      (Json.obj below).SameKinds (.obj above)) ∧
    values ⟨.append, false⟩ (values ⟨.append, false⟩ (.obj baseLayer) (.obj siteLayer))
        (.obj ownLayer) =
      .obj [("db", .obj [("ports", .arr [.str "1", .str "2"]), ("user", .str "u")]),
        ("mode", .str "test"), ("ports", .arr [.str "0"])] :=
  ⟨tidy_layers, nullFree_layers, sameKinds_layers,
    (values_values (.inr rfl) tidy_layers nullFree_layers sameKinds_layers).trans rfl⟩

theorem fields_eq_self {lower upper : Fields}
    (kept : ∀ entry ∈ upper, rule.laid (lower.get? entry.1) (some entry.2) = lower.get? entry.1) :
    rule.fields lower upper = lower := by
  induction upper with
  | nil => rfl
  | cons entry rest ih =>
    obtain ⟨name, above⟩ := entry
    have here := kept (name, above) (by simp)
    have later := ih fun entry member => kept entry (List.mem_cons_of_mem _ member)
    rw [fields]
    simp only [laid] at here
    cases value : rule.value? (lower.get? name) above with
    | none => exact later
    | some value =>
      -- Setting a field to what it is already changes nothing.
      rw [value, Option.some_or] at here
      simp only [Fields.set_eq_self here.symm]
      exact later

theorem fields_fields_self {upper : Fields} (distinct : upper.keys.Nodup) (lower : Fields)
    (inner : ∀ key value, upper.get? key = some value → ∀ below,
      rule.laid (rule.laid below (some value)) (some value) = rule.laid below (some value)) :
    rule.fields (rule.fields lower upper) upper = rule.fields lower upper := by
  refine rule.fields_eq_self fun entry member => ?_
  have found := Fields.get?_of_mem distinct member
  rw [get?_fields rule distinct, found]
  exact inner _ _ found _

theorem laid_self {above : Json} (tidy : above.Tidy) (nulls : Bool) (below : Option Json) :
    laid ⟨.replace, nulls⟩ (laid ⟨.replace, nulls⟩ below (some above)) (some above) =
      laid ⟨.replace, nulls⟩ below (some above) := by
  induction above using Json.fieldwise generalizing below with
  | plain above whole =>
    cases skipped : skips ⟨.replace, nulls⟩ above with
    | true => rw [laid_of_skips _ _ skipped]
    | false =>
      have covers : Covers ⟨.replace, nulls⟩ above := ⟨whole, skipped⟩
      rw [laid_of_covers _ _ covers, laid_of_covers _ _ covers]
      cases above <;> rfl
  | object upper ih =>
    rw [laid_obj, laid_obj]
    refine congrArg (fun fields => some (Json.obj fields)) ?_
    refine fields_fields_self _ tidy.keys _ fun key value found => ?_
    exact ih key value found (tidy.child found)

theorem values_values_self (nulls : Bool) (lower : Json) {upper : Json} (tidy : upper.Tidy) :
    values ⟨.replace, nulls⟩ (values ⟨.replace, nulls⟩ lower upper) upper =
      values ⟨.replace, nulls⟩ lower upper := by
  have distinct := fieldsOf_distinct (tidy_some tidy)
  refine congrArg Json.obj (fields_fields_self _ distinct _ fun key value found => ?_)
  rw [Json.get?_fieldsOf] at found
  exact laid_self (tidy.child found) nulls

-- An object that has taken the place of a text, without the nulls in it.
theorem replaced_value_stays :
    (Json.obj nestedUpper).Tidy ∧
    values ⟨.replace, false⟩
        (values ⟨.replace, false⟩ (.obj [("x", .str "old")]) (.obj nestedUpper))
        (.obj nestedUpper) =
      .obj [("x", .obj [("more", .str "m"), ("list", .arr [.str "b"])])] :=
  ⟨tidy_nestedUpper, (values_values_self false _ tidy_nestedUpper).trans rfl⟩

end Overlay
end LayeredEnv
