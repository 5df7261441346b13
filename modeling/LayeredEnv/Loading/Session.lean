import LayeredEnv.Loading.Error
import LayeredEnv.Naming.Role
import LayeredEnv.Variables

set_option autoImplicit false

namespace LayeredEnv

open Disk (FilePath)
open Naming (Role)

inductive Notice
  | initializing
  | purging
  | purgeFailed (error : LoadError)
  | explicitFiles
  | skippingMissing (path : FilePath)
  | environmentGiven (name : String)
  | environmentFrom (name : String) (holder : String)
  | environmentFallback (holder : String) (name : String)
  | environmentUnknown
  | listing
  | localSkipped (name : String)
  | listed (path : FilePath) (role : Role)
  | loading (count : Nat)
  | parsing (path : FilePath)
  | overridden (key : String) (path : FilePath)
  | predefined (key : String)
  | unsetting (key : String)
  | failed (error : LoadError)
deriving DecidableEq, Repr

namespace Notice

def isWarning : Notice → Bool
  | .purgeFailed _ => true
  | .failed _ => true
  | _ => false

def message : Notice → String
  | .initializing => "initializing..."
  | .purging => "\x60purge_dotenv\x60 enabled, unloading \x60.env\x60 file..."
  | .purgeFailed error => "unloading failed: " ++ error.message
  | .explicitFiles => "using explicit file list, \x60env_name\x60 and \x60pattern\x60 are ignored"
  | .skippingMissing path => "skipping missing file \"" ++ path.text ++ "\""
  | .environmentGiven name => "setting env name to \"" ++ name ++ "\" from options"
  | .environmentFrom name holder =>
    "setting env name to \"" ++ name ++ "\" from \x60" ++ holder ++ "\x60"
  | .environmentFallback holder name =>
    "\x60" ++ holder ++ "\x60 is not set, falling back to default \"" ++ name ++ "\""
  | .environmentUnknown => "no environment name in effect"
  | .listing => "listing effective \x60.env*\x60 files..."
  | .localSkipped name =>
    "[!] note that \x60" ++ name ++ "\x60 is being skipped for \"test\" environment"
  | .listed path role => ">> " ++ path.text ++ " (" ++ role.label ++ ")"
  | .loading count => "loading " ++ toString count ++ " file(s)..."
  | .parsing path => "parsing \"" ++ path.text ++ "\"..."
  | .overridden key path =>
    ">> " ++ key ++ " is being overwritten by merge from \"" ++ path.text ++ "\""
  | .predefined key => "\x60" ++ key ++ "\x60 is predefined and not being overwritten"
  | .unsetting key => "unsetting \x60" ++ key ++ "\x60"
  | .failed error => "\".env*\" files loading failed: " ++ error.message

end Notice

structure Session where
  vars : Variables
  notices : List Notice

abbrev Action (α : Type) := EStateM LoadError Session α

namespace Action

def ofExcept {α : Type} : Except LoadError α → Action α
  | .ok value => pure value
  | .error error => throw error

def noteAll (notices : List Notice) : Action Unit :=
  modify fun session => { session with notices := session.notices ++ notices }

def note (notice : Notice) : Action Unit := noteAll [notice]

def vars : Action Variables := do return (← get).vars

def unset (key : String) : Action Unit :=
  modify fun session => { session with vars := session.vars.erase key }

def assign (key value : String) : Action Unit :=
  modify fun session => { session with vars := session.vars.insert key value }

end Action
end LayeredEnv
