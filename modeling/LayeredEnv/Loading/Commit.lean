import LayeredEnv.Loading.Source
import LayeredEnv.Settings.Basic
import LayeredEnv.Value.Expansion

set_option autoImplicit false

namespace LayeredEnv

open Disk (FilePath Tree)

namespace Loading

structure Staged where
  vars : Variables
  removals : List String

def loadedKeys (entries : Fields) (vars : Variables) : List String :=
  Fields.keys (entries.filter fun entry => vars[entry.1]? = some entry.2.render)

def Staged.remove (staged : Staged) (keys : List String) : Staged where
  vars := staged.vars.eraseAll keys
  removals := staged.removals ++ keys

/-- Replaces the raw value of each key that is not a variable by its resolved value, in order. A
later key is resolved against the resolved values of the earlier ones. -/
def resolveKeys (vars : Variables) : List String → Fields → Action Fields
  | [], entries => return entries
  | key :: rest, entries => do
    let raw := ((entries.get? key).map Json.render).getD ""
    match vars[key]? with
    | some current =>
      if current ≠ raw then Action.note (.predefined key)
      resolveKeys vars rest entries
    | none =>
      match Value.resolve ⟨vars, entries⟩ key raw with
      | .ok value => resolveKeys vars rest (entries.set key value)
      | .error chain => throw (.cyclicReference chain)

def unsetAll (keys : List String) : Action Unit :=
  keys.forM fun key => do
    Action.note (.unsetting key)
    Action.unset key

def assignNew (staged : Variables) (entry : String × Json) : Action Unit := do
  if staged.contains entry.1 || (← Action.vars).contains entry.1 then return
  Action.assign entry.1 entry.2.render

def committed (overlay : Overlay) (resolved : Fields) (vars : Variables) : Fields :=
  overlay.fields (resolved.map fun entry => (entry.1, .str entry.2.render))
    (vars.toList.map fun entry => (entry.1, .str entry.2))

-- Nothing is written before every entry is resolved.
def commit (tree : Tree) (settings : Settings) (staged : Staged) (paths : List FilePath) :
    Action Fields := do
  Action.note (.loading paths.length)
  let entries ← mergeFiles tree settings.encoding settings.overlay paths
  let resolved ← resolveKeys staged.vars entries.keys entries
  unsetAll staged.removals
  (committed settings.overlay resolved staged.vars).forM (assignNew staged.vars)
  return resolved

end Loading
end LayeredEnv
