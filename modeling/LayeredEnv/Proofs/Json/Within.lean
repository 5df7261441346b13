import LayeredEnv.Json.Basic

set_option autoImplicit false

namespace LayeredEnv.Json

theorem nested {motive : Json → Prop}
    (plain : ∀ json, json.items? = none → json.fields? = none → motive json)
    (array : ∀ items : List Json, (∀ item ∈ items, motive item) → motive (.arr items))
    (object : ∀ fields : Fields, (∀ entry ∈ fields, motive entry.2) → motive (.obj fields)) :
    ∀ json, motive json
  | .arr items => array items fun item member =>
      have _smaller : sizeOf item < sizeOf items := List.sizeOf_lt_of_mem member
      nested plain array object item
  | .obj fields => object fields fun entry member =>
      have _smaller : sizeOf entry < sizeOf fields := List.sizeOf_lt_of_mem member
      nested plain array object entry.2
  | .null => plain .null rfl rfl
  | .bool value => plain (.bool value) rfl rfl
  | .num value => plain (.num value) rfl rfl
  | .str value => plain (.str value) rfl rfl
termination_by json => sizeOf json
decreasing_by
  · simp only [arr.sizeOf_spec]
    omega
  · have inner : sizeOf entry.2 < sizeOf entry := by
      obtain ⟨key, value⟩ := entry
      simp only [Prod.mk.sizeOf_spec]
      omega
    simp only [obj.sizeOf_spec]
    omega

inductive Within : Json → Json → Prop
  | self (json : Json) : Within json json
  | item {part item : Json} {items : List Json} (inner : Within part item)
      (member : item ∈ items) : Within part (.arr items)
  | field {part : Json} {entry : String × Json} {fields : Fields} (inner : Within part entry.2)
      (member : entry ∈ fields) : Within part (.obj fields)

theorem Within.trans {part middle json : Json} (first : Within part middle)
    (second : Within middle json) : Within part json := by
  induction second with
  | self => exact first
  | item _ member ih => exact .item ih member
  | field _ member ih => exact .field ih member

def Names (text : String) (json : Json) : Prop :=
  Within (.str text) json ∨ ∃ fields : Fields, text ∈ fields.keys ∧ Within (.obj fields) json

def FloatFree (json : Json) : Prop := ∀ value, ¬ Within (.num (.float value)) json

theorem Names.within {text : String} {part json : Json} (names : Names text part)
    (within : Within part json) : Names text json :=
  names.imp (·.trans within) fun ⟨fields, key, inner⟩ => ⟨fields, key, inner.trans within⟩

end LayeredEnv.Json
