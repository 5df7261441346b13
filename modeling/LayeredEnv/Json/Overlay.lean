import LayeredEnv.Json.Basic

set_option autoImplicit false

namespace LayeredEnv

/-- What becomes of an array that lies over another value. A combination is given the lower array,
if the lower value is one, and the upper array. -/
inductive ArrayRule
  | replace
  | append
  | combine (combination : Option (List Json) → List Json → List Json)
deriving Inhabited

structure Overlay where
  arrays : ArrayRule
  nulls : Bool

namespace Overlay

def default : Overlay := ⟨.replace, false⟩

instance : Inhabited Overlay := ⟨default⟩

def items (rule : Overlay) (lower : Option Json) (upper : List Json) : List Json :=
  match rule.arrays with
  | .replace => upper
  | .append => ((lower.bind Json.items?).getD []) ++ upper
  | .combine combination => combination (lower.bind Json.items?) upper

mutual

def value? (rule : Overlay) (lower : Option Json) : Json → Option Json
  | .null => if rule.nulls then some .null else none
  | .bool value => some (.bool value)
  | .num value => some (.num value)
  | .str value => some (.str value)
  | .arr upper => some (.arr (rule.items lower upper))
  | .obj upper => some (.obj (fields rule ((lower.bind Json.fields?).getD []) upper))

def fields (rule : Overlay) (lower : Fields) : List (String × Json) → Fields
  | [] => lower
  | (key, upper) :: rest =>
    match value? rule (lower.get? key) upper with
    | some value => fields rule (lower.set key value) rest
    | none => fields rule lower rest

end

def values (rule : Overlay) (lower upper : Json) : Json :=
  .obj (rule.fields (lower.fields?.getD []) (upper.fields?.getD []))

def describe (rule : Overlay) : String :=
  let arrays := match rule.arrays with
    | .replace => "None"
    | .append | .combine _ => "Some(\"custom\")"
  "MergeConfig \x7b array_merge: " ++ arrays ++
    ", include_nulls: " ++ toString rule.nulls ++ " \x7d"

end Overlay
end LayeredEnv
