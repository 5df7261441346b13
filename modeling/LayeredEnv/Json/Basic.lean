import LayeredEnv.Decimal.Binary64

set_option autoImplicit false

namespace LayeredEnv

inductive Json.Number
  | int (value : Int)
  | float (value : Decimal.Binary64)
deriving DecidableEq, Repr, Inhabited

inductive Json
  | null
  | bool (value : Bool)
  | num (value : Json.Number)
  | str (value : String)
  | arr (items : List Json)
  | obj (fields : List (String × Json))
deriving Repr, Inhabited

namespace Json

mutual

def decEq : (a b : Json) → Decidable (a = b)
  | .null, .null => isTrue rfl
  | .bool a, .bool b => decidable_of_iff (a = b) (by simp)
  | .num a, .num b => decidable_of_iff (a = b) (by simp)
  | .str a, .str b => decidable_of_iff (a = b) (by simp)
  | .arr a, .arr b => have := decEqItems a b; decidable_of_iff (a = b) (by simp)
  | .obj a, .obj b => have := decEqFields a b; decidable_of_iff (a = b) (by simp)
  | .null, .bool _ | .null, .num _ | .null, .str _ | .null, .arr _ | .null, .obj _
  | .bool _, .null | .bool _, .num _ | .bool _, .str _ | .bool _, .arr _ | .bool _, .obj _
  | .num _, .null | .num _, .bool _ | .num _, .str _ | .num _, .arr _ | .num _, .obj _
  | .str _, .null | .str _, .bool _ | .str _, .num _ | .str _, .arr _ | .str _, .obj _
  | .arr _, .null | .arr _, .bool _ | .arr _, .num _ | .arr _, .str _ | .arr _, .obj _
  | .obj _, .null | .obj _, .bool _ | .obj _, .num _ | .obj _, .str _ | .obj _, .arr _ =>
    isFalse (by simp)

def decEqItems : (a b : List Json) → Decidable (a = b)
  | [], [] => isTrue rfl
  | [], _ :: _ | _ :: _, [] => isFalse (by simp)
  | a :: as, b :: bs =>
    have := decEq a b
    have := decEqItems as bs
    decidable_of_iff (a = b ∧ as = bs) (by simp)

def decEqFields : (a b : List (String × Json)) → Decidable (a = b)
  | [], [] => isTrue rfl
  | [], _ :: _ | _ :: _, [] => isFalse (by simp)
  | (key, a) :: as, (name, b) :: bs =>
    have := decEq a b
    have := decEqFields as bs
    decidable_of_iff (key = name ∧ a = b ∧ as = bs) (by simp [and_assoc])

end

instance : DecidableEq Json := decEq

end Json

abbrev Fields := List (String × Json)

namespace Fields

def get? (key : String) : Fields → Option Json
  | [] => none
  | (name, value) :: rest => if name = key then some value else get? key rest

def set (key : String) (value : Json) : Fields → Fields
  | [] => [(key, value)]
  | (name, old) :: rest =>
    if name = key then (key, value) :: rest else (name, old) :: set key value rest

def keys (fields : Fields) : List String := fields.map Prod.fst

def has (key : String) (fields : Fields) : Bool := (fields.get? key).isSome

@[simp] theorem get?_nil (key : String) : get? key [] = none := rfl

@[simp] theorem get?_set_self (key : String) (value : Json) (fields : Fields) :
    (fields.set key value).get? key = some value := by
  induction fields with
  | nil => simp [set, get?]
  | cons field rest ih =>
    obtain ⟨name, old⟩ := field
    by_cases same : name = key <;> simp [set, get?, same, ih]

theorem get?_set_of_ne {key other : String} (differ : key ≠ other) (value : Json)
    (fields : Fields) : (fields.set key value).get? other = fields.get? other := by
  induction fields with
  | nil => simp [set, get?, differ]
  | cons field rest ih =>
    obtain ⟨name, old⟩ := field
    by_cases same : name = key
    next => subst same; simp [set, get?, differ]
    next => simp [set, get?, same, ih]

theorem get?_isSome_iff (key : String) (fields : Fields) :
    (fields.get? key).isSome = true ↔ key ∈ fields.keys := by
  induction fields with
  | nil => simp [keys]
  | cons field rest ih =>
    obtain ⟨name, value⟩ := field
    by_cases same : name = key
    next => simp [get?, keys, same]
    next => simpa [get?, keys, same, Ne.symm same] using ih

theorem keys_set_of_mem {key : String} {fields : Fields} (present : key ∈ fields.keys)
    (value : Json) : (fields.set key value).keys = fields.keys := by
  induction fields with
  | nil => simp [keys] at present
  | cons field rest ih =>
    obtain ⟨name, old⟩ := field
    by_cases same : name = key
    next => simp [set, keys, same]
    next =>
      have later : key ∈ keys rest := by simpa [keys, Ne.symm same] using present
      simpa [set, keys, same] using ih later

theorem keys_set_of_not_mem {key : String} {fields : Fields} (absent : key ∉ fields.keys)
    (value : Json) : (fields.set key value).keys = fields.keys ++ [key] := by
  induction fields with
  | nil => simp [set, keys]
  | cons field rest ih =>
    obtain ⟨name, old⟩ := field
    simp only [keys, List.map_cons, List.mem_cons, not_or] at absent
    have later : key ∉ keys rest := absent.2
    simpa [set, keys, Ne.symm absent.1] using ih later

theorem keys_set_nodup {fields : Fields} (distinct : fields.keys.Nodup) (key : String)
    (value : Json) : (fields.set key value).keys.Nodup := by
  by_cases present : key ∈ fields.keys
  next => rwa [keys_set_of_mem present]
  next =>
    rw [keys_set_of_not_mem present, List.nodup_append]
    refine ⟨distinct, by simp, ?_⟩
    intro a mem b single same
    simp only [List.mem_singleton] at single
    exact present (single ▸ same ▸ mem)

end Fields

namespace Json

def fields? : Json → Option Fields
  | .obj fields => some fields
  | _ => none

def items? : Json → Option (List Json)
  | .arr items => some items
  | _ => none

def str? : Json → Option String
  | .str text => some text
  | _ => none

end Json
end LayeredEnv
