import LayeredEnv.Proofs.Fields

set_option autoImplicit false

namespace LayeredEnv.Json

def child? (key : String) (json : Json) : Option Json := json.fields?.bind (Fields.get? key)

def at? : List String → Json → Option Json
  | [], json => some json
  | key :: rest, json => (json.child? key).bind (at? rest)

@[simp] theorem at?_nil (json : Json) : json.at? [] = some json := rfl

@[simp] theorem at?_cons (key : String) (rest : List String) (json : Json) :
    json.at? (key :: rest) = (json.child? key).bind (at? rest) := rfl

@[simp] theorem child?_obj (key : String) (fields : Fields) :
    (Json.obj fields).child? key = fields.get? key := rfl

theorem bind_at?_nil (json : Option Json) : json.bind (at? []) = json := by
  cases json <;> rfl

theorem bind_at?_cons (key : String) (rest : List String) (json : Option Json) :
    json.bind (at? (key :: rest)) = (json.bind (child? key)).bind (at? rest) := by
  cases json <;> rfl

theorem child?_of_no_fields {json : Json} (plain : json.fields? = none) (key : String) :
    json.child? key = none := by
  rw [child?, plain, Option.bind_none]

theorem at?_of_no_fields {json : Json} (plain : json.fields? = none) (key : String)
    (rest : List String) : json.at? (key :: rest) = none := by
  rw [at?_cons, child?_of_no_fields plain, Option.bind_none]

theorem at?_append (before after : List String) (json : Json) :
    json.at? (before ++ after) = (json.at? before).bind (at? after) := by
  induction before generalizing json with
  | nil => rfl
  | cons key rest ih =>
    rw [List.cons_append, at?_cons, at?_cons, Option.bind_assoc]
    exact Option.bind_congr fun inner _ => ih inner

theorem fields?_eq_some_iff {json : Json} {fields : Fields} :
    json.fields? = some fields ↔ json = .obj fields := by
  cases json <;> simp [fields?]

def fieldsOf (json : Option Json) : Fields := (json.bind fields?).getD []

theorem get?_fieldsOf (json : Option Json) (key : String) :
    (fieldsOf json).get? key = json.bind (child? key) := by
  cases json with
  | none => rfl
  | some json => cases fields : json.fields? <;> simp [fieldsOf, child?, fields]

/-- The keys of every object on a path are distinct. -/
def Tidy (json : Json) : Prop :=
  ∀ (path : List String) (fields : Fields), json.at? path = some (.obj fields) →
    fields.keys.Nodup

theorem Tidy.keys {fields : Fields} (tidy : Tidy (.obj fields)) : fields.keys.Nodup :=
  tidy [] fields rfl

theorem tidy_of_no_fields {json : Json} (plain : json.fields? = none) : json.Tidy := by
  intro path fields reached
  cases path with
  | nil =>
    cases reached
    cases plain
  | cons key rest =>
    rw [at?_of_no_fields plain] at reached
    cases reached

theorem tidy_obj {fields : Fields} (distinct : fields.keys.Nodup)
    (inner : ∀ entry ∈ fields, entry.2.Tidy) : Tidy (.obj fields) := by
  intro path deeper reached
  cases path with
  | nil =>
    cases reached
    exact distinct
  | cons key rest =>
    rw [at?_cons, child?_obj, Option.bind_eq_some_iff] at reached
    obtain ⟨value, found, reached⟩ := reached
    exact inner _ (Fields.mem_of_get? found) rest deeper reached

theorem Tidy.child {json inner : Json} {key : String} (tidy : json.Tidy)
    (found : json.child? key = some inner) : inner.Tidy := by
  intro path fields reached
  refine tidy (key :: path) fields ?_
  rw [at?_cons, found, Option.bind_some, reached]

end LayeredEnv.Json
