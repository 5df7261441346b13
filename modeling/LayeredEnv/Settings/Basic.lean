import LayeredEnv.Disk.Tree
import LayeredEnv.Json.Overlay
import LayeredEnv.Naming.Pattern

set_option autoImplicit false

namespace LayeredEnv

open Disk (FilePath Tree)

structure Settings where
  environment : Option String := none
  fallbackEnvironment : Option String := none
  environmentVariable : String := "APP_ENV"
  directory : Option FilePath := none
  pattern : Option String := none
  files : Option (List FilePath) := none
  encoding : Option String := none
  purge : Bool := false
  silent : Bool := false
  overlay : Overlay := Overlay.default
deriving Inhabited

namespace Settings

def workingDirectory (settings : Settings) (tree : Tree) : FilePath :=
  match settings.directory with
  | some directory => tree.absolute directory
  | none => tree.current

def effectivePattern (settings : Settings) : String :=
  settings.pattern.getD Naming.defaultPattern

end Settings
end LayeredEnv
