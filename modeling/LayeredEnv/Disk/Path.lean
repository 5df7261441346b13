import LayeredEnv.Text.Line

set_option autoImplicit false

namespace LayeredEnv.Disk

structure FilePath where
  text : String
deriving DecidableEq, Repr, Inhabited

namespace FilePath

def isAbsolute (path : FilePath) : Bool := path.text.toList.head? = some '/'

def join (directory path : FilePath) : FilePath :=
  if path.isAbsolute then path
  else match directory.text.toList.getLast? with
    | none => path
    | some '/' => ⟨directory.text ++ path.text⟩
    | some _ => ⟨directory.text ++ "/" ++ path.text⟩

def names (path : FilePath) : List String :=
  ((Text.splitBy '/' path.text.toList).filter (fun part => !part.isEmpty)).map String.ofList

/-- What decides whether two paths are the same: doubled and final slashes do not count, and dots
only at the start of a relative path; two dots always count. -/
def normalized (path : FilePath) : Bool × List String :=
  match path.isAbsolute, path.names with
  | false, "." :: rest => (false, "." :: rest.filter (· ≠ "."))
  | absolute, names => (absolute, names.filter (· ≠ "."))

def distinctFrom (seen : List (Bool × List String)) : List FilePath → List FilePath
  | [] => []
  | path :: rest =>
    if path.normalized ∈ seen then distinctFrom seen rest
    else path :: distinctFrom (path.normalized :: seen) rest

def distinct (paths : List FilePath) : List FilePath := distinctFrom [] paths

end FilePath
end LayeredEnv.Disk
