import LayeredEnv.Charset.Decoding
import LayeredEnv.Disk.Path

set_option autoImplicit false

namespace LayeredEnv.Disk

inductive Refusal
  | denied
  | broken
deriving DecidableEq, Repr

def Refusal.message : Refusal → String
  | .denied => "Permission denied (os error 13)"
  | .broken => "Input/output error (os error 5)"

-- What is locked can be seen but not opened: a locked directory leads nowhere.
inductive Node
  | directory
  | file (content : List UInt8)
  | lockedDirectory
  | lockedFile (refusal : Refusal)
deriving DecidableEq, Repr

inductive Fault
  | missing
  | notDirectory
  | isDirectory
  | nameTooLong
  | nulInName
  | refused (refusal : Refusal)
deriving DecidableEq, Repr

def Fault.message : Fault → String
  | .missing => "No such file or directory (os error 2)"
  | .notDirectory => "Not a directory (os error 20)"
  | .isDirectory => "Is a directory (os error 21)"
  | .nameTooLong => "File name too long (os error 36)"
  | .nulInName => "file name contained an unexpected NUL byte"
  | .refused refusal => refusal.message

/-- The nodes below the root by the names that lead to them, the current directory, and the decoders
for files in an encoding without a table. -/
structure Tree where
  nodes : List (List String × Node)
  current : FilePath
  [decoders : Charset.Decoders]

namespace Tree

def node? (tree : Tree) (place : List String) : Option Node :=
  if place.isEmpty then some .directory else tree.nodes.lookup place

def nameLimit : Nat := 255

def pathLimit : Nat := 4096

def walk (tree : Tree) (place : List String) : List String → Except Fault Node
  | [] => (tree.node? place).elim (.error .missing) .ok
  | name :: rest =>
    match tree.node? place with
    | none => .error .missing
    | some (.file _) | some (.lockedFile _) => .error .notDirectory
    | some .lockedDirectory => .error (.refused .denied)
    | some .directory =>
      if name = "." then tree.walk place rest
      else if name = ".." then tree.walk place.dropLast rest
      else if nameLimit < name.utf8ByteSize then .error .nameTooLong
      else tree.walk (place ++ [name]) rest

def steps (path : FilePath) : List String :=
  path.names ++ if path.text.toList.getLast? = some '/' then ["."] else []

def find (tree : Tree) (path : FilePath) : Except Fault Node :=
  if '\x00' ∈ path.text.toList then .error .nulInName
  else if path.text.isEmpty then .error .missing
  else if pathLimit ≤ path.text.utf8ByteSize then .error .nameTooLong
  else if path.isAbsolute then tree.walk [] (steps path)
  else tree.walk [] (tree.current.names ++ steps path)

def isFile (tree : Tree) (path : FilePath) : Bool :=
  match tree.find path with
  | .ok (.file _) | .ok (.lockedFile _) => true
  | _ => false

def content (tree : Tree) (path : FilePath) : Except Fault (List UInt8) :=
  match tree.find path with
  | .ok (.file bytes) => .ok bytes
  | .ok .directory => .error .isDirectory
  | .ok .lockedDirectory => .error (.refused .denied)
  | .ok (.lockedFile refusal) => .error (.refused refusal)
  | .error fault => .error fault

def absolute (tree : Tree) (path : FilePath) : FilePath := tree.current.join path

end Tree
end LayeredEnv.Disk
