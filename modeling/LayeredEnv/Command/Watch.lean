import LayeredEnv.Command.Run

set_option autoImplicit false

namespace LayeredEnv.Command

open Disk (FilePath Tree)

def possibleEnvironments (settings : Settings) (vars : Variables) : List (Option String) :=
  [none, settings.environment, vars[settings.environmentVariable]?,
    settings.fallbackEnvironment]

def cascadePaths (tree : Tree) (settings : Settings) (vars : Variables) : List FilePath :=
  let directory := settings.workingDirectory tree
  let names := (possibleEnvironments settings vars).flatMap fun name =>
    (Naming.candidates settings.effectivePattern name).map fun candidate => FilePath.mk candidate.2
  ((Loading.plainFile :: settings.files.getD []) ++ names).map directory.join

def watchedPaths (tree : Tree) (vars : Variables) (arguments : List String) : List FilePath :=
  let settings (layer : Layer) := settingsOf ⟨tree, vars⟩ layer
  match read arguments with
  | .run (.list layer _) => cascadePaths tree (settings layer) vars
  | .run (.load layer _) => cascadePaths tree (settings layer) vars
  | .run (.parse files _) => files
  | .run (.exec layer _ _) => cascadePaths tree (settings layer) vars
  | .run (.completions _) => []
  | .stop _ _ => []

def place (names : List String) : List String :=
  names.foldl (fun place name =>
    if name = "." then place else if name = ".." then place.dropLast else place ++ [name]) []

def placesOf (tree : Tree) (path : FilePath) : List (List String) :=
  let names := (tree.absolute path).names
  (List.range (names.length + 1)).map fun count => place (names.take count)

def watchedPlaces (tree : Tree) (vars : Variables) (arguments : List String) :
    List (List String) :=
  ((watchedPaths tree vars arguments).flatMap (placesOf tree)).eraseDups

def placeText (place : List String) : String := "/" ++ "/".intercalate place

end LayeredEnv.Command
