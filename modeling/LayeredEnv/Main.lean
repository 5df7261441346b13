import LayeredEnv.Command.Watch

set_option autoImplicit false

namespace LayeredEnv.Main

open Disk (Node Tree)

def errorNumber : IO.Error → UInt32
  | .inappropriateType _ number _ => number
  | .otherError number _ => number
  | .illegalOperation number _ => number
  | .permissionDenied _ number _ => number
  | .hardwareFault number _ => number
  | _ => 0

def nodeOfError (error : IO.Error) : Option Node :=
  match errorNumber error with
  | 5 => some (.lockedFile .broken)
  | 13 => some (.lockedFile .denied)
  | 21 => some .directory
  | _ => none

def nodeAt (place : List String) : IO (Option Node) := do
  try
    let bytes ← IO.FS.readBinFile (Command.placeText place)
    return some (.file bytes.toList)
  catch error =>
    return nodeOfError error

def readTree (current : Disk.FilePath) (places : List (List String)) : IO Tree := do
  let mut nodes := []
  for place in places do
    if let some node ← nodeAt place then
      nodes := nodes ++ [(place, node)]
  return ⟨nodes, current⟩

def environmentEntries (block : String) : List (String × String) :=
  (Text.splitBy '\x00' block.toList).filterMap fun entry =>
    match entry.dropWhile (· ≠ '=') with
    | _ :: value => some (String.ofList (entry.takeWhile (· ≠ '=')), String.ofList value)
    | [] => none

def readVariables : IO Variables := do
  let bytes ← IO.FS.readBinFile "/proc/self/environ"
  return Variables.ofList (environmentEntries ((String.fromUTF8? bytes).getD ""))

end LayeredEnv.Main

open LayeredEnv in
def main (arguments : List String) : IO UInt32 := do
  let vars ← Main.readVariables
  let current : Disk.FilePath := ⟨(← IO.currentDir).toString⟩
  let places := Command.watchedPlaces ⟨[], current⟩ vars arguments
  let tree ← Main.readTree current places
  let outcome := Command.run ⟨tree, vars⟩ arguments
  IO.print outcome.output
  IO.eprint outcome.errors
  return outcome.code.toUInt32
