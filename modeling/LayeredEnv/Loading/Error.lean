import LayeredEnv.Disk.Tree

set_option autoImplicit false

namespace LayeredEnv

open Disk (FilePath Fault)

inductive LoadError
  | unreadable (path : FilePath) (fault : Fault)
  | unsupportedEncoding (path : FilePath) (label : String)
  | undecodable (path : FilePath) (encoding : String)
  | noMatchingFiles (pattern : String) (directory : FilePath)
  | cyclicReference (chain : List String)
deriving DecidableEq, Repr

namespace LoadError

def message : LoadError → String
  | .unreadable path fault => "failed to read \"" ++ path.text ++ "\": " ++ fault.message
  | .unsupportedEncoding path label =>
    "unsupported encoding \"" ++ label ++ "\" requested for \"" ++ path.text ++ "\""
  | .undecodable path encoding => "\"" ++ path.text ++ "\" is not valid " ++ encoding
  | .noMatchingFiles pattern directory =>
    "no \".env*\" files matching pattern \"" ++ pattern ++ "\" in \"" ++ directory.text ++ "\" dir"
  | .cyclicReference chain => "cyclic variable reference: " ++ " -> ".intercalate chain

def causes (error : LoadError) : List String :=
  match error with
  | .unreadable _ fault => [error.message, fault.message]
  | _ => [error.message]

end LoadError
end LayeredEnv
