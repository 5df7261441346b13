import LayeredEnv.Loading.Cascade
import LayeredEnv.Loading.Commit

set_option autoImplicit false

namespace LayeredEnv

open Disk (FilePath Tree)

namespace Loading

def plainFile : FilePath := ⟨".env"⟩

def reporting {α : Type} (settings : Settings) (action : Action α) : Action α :=
  tryCatch action fun error => do
    if !settings.silent then Action.note (.failed error)
    throw error

/-- Stages the removal of what an earlier load of the plain file has set. A plain file that cannot
be read stages nothing. -/
def stagePurge (tree : Tree) (settings : Settings) (staged : Staged) : Action Staged := do
  let path := (settings.workingDirectory tree).join plainFile
  if !tree.isFile path then return staged
  Action.note .purging
  tryCatch (do
    let entries ← mergeFiles tree settings.encoding settings.overlay [path]
    return staged.remove (loadedKeys entries staged.vars))
    fun error => do
      if !settings.silent then Action.note (.purgeFailed error)
      return staged

def select (tree : Tree) (settings : Settings) (vars : Variables) : Action (List FilePath) := do
  let directory := settings.workingDirectory tree
  match settings.files with
  | some files =>
    Action.note .explicitFiles
    selectExplicit tree directory files
  | none =>
    let (name, files) ← selectCascade tree settings vars
    if files.isEmpty then
      throw (.noMatchingFiles (Naming.describe settings.effectivePattern name) directory)
    return files.map CascadeFile.path

def cascade (tree : Tree) (settings : Settings) : Action Fields :=
  reporting settings do
    Action.note .initializing
    let staged : Staged := ⟨← Action.vars, []⟩
    let staged ← if settings.purge then stagePurge tree settings staged else pure staged
    let paths ← select tree settings staged.vars
    commit tree settings staged (FilePath.distinct paths)

def files (tree : Tree) (settings : Settings) (paths : List FilePath) : Action Fields := do
  let staged : Staged := ⟨← Action.vars, []⟩
  reporting settings (commit tree settings staged (FilePath.distinct paths))

def unload (tree : Tree) (settings : Settings) (paths : List FilePath) : Action Unit := do
  let entries ← reporting settings (mergeFiles tree settings.encoding settings.overlay paths)
  unsetAll (loadedKeys entries (← Action.vars))

def planned (tree : Tree) (settings : Settings) : Action (List CascadeFile) := do
  return (← selectCascade tree settings (← Action.vars)).2

end Loading
end LayeredEnv
