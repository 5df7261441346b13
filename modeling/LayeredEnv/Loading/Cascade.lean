import LayeredEnv.Loading.Session
import LayeredEnv.Settings.Basic

set_option autoImplicit false

namespace LayeredEnv

open Disk (FilePath Tree)
open Naming (Role)

namespace Loading

def environment (settings : Settings) (vars : Variables) : Option String × Notice :=
  match Naming.givenName settings.environment with
  | some name => (some name, .environmentGiven name)
  | none =>
    match Naming.givenName vars[settings.environmentVariable]? with
    | some name => (some name, .environmentFrom name settings.environmentVariable)
    | none =>
      match Naming.givenName settings.fallbackEnvironment with
      | some name => (some name, .environmentFallback settings.environmentVariable name)
      | none => (none, .environmentUnknown)

structure CascadeFile where
  role : Role
  path : FilePath
deriving DecidableEq, Repr

def cascadeIn (tree : Tree) (directory : FilePath) (pattern : String)
    (environment : Option String) : List CascadeFile :=
  (Naming.candidates pattern environment).filterMap fun (role, name) =>
    let path := directory.join ⟨name⟩
    if tree.isFile path then some ⟨role, path⟩ else none

def skippedLocal? (tree : Tree) (directory : FilePath) (pattern : String)
    (environment : Option String) : Option String :=
  let name := Naming.compose pattern true none
  if environment = some Naming.testEnvironment && Naming.hasLocal pattern &&
      tree.isFile (directory.join ⟨name⟩) then some name else none

def list (tree : Tree) (directory : FilePath) (pattern : String) (environment : Option String) :
    Action (List CascadeFile) := do
  let files := cascadeIn tree directory pattern environment
  Action.note .listing
  Action.noteAll ((skippedLocal? tree directory pattern environment).toList.map .localSkipped)
  Action.noteAll (files.map fun file => .listed file.path file.role)
  return files

def selectCascade (tree : Tree) (settings : Settings) (vars : Variables) :
    Action (Option String × List CascadeFile) := do
  let (name, origin) := environment settings vars
  Action.note origin
  let files ← list tree (settings.workingDirectory tree) settings.effectivePattern name
  return (name, files)

def selectExplicit (tree : Tree) (directory : FilePath) (files : List FilePath) :
    Action (List FilePath) := do
  let paths := files.map directory.join
  Action.noteAll ((paths.filter fun path => !tree.isFile path).map .skippingMissing)
  return paths.filter tree.isFile

end Loading
end LayeredEnv
