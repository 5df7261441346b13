import LayeredEnv.Charset.Decoding
import LayeredEnv.EnvFile.Document
import LayeredEnv.Json.Overlay
import LayeredEnv.Loading.Session

set_option autoImplicit false

namespace LayeredEnv

open Disk (FilePath Tree)

namespace Loading

def charsetFor (path : FilePath) : Option String → Except LoadError Charset
  | none => .ok .utf8
  | some label =>
    match Charset.ofLabel? label with
    | some charset => .ok charset
    | none => .error (.unsupportedEncoding path label)

def decodeAs [Charset.Decoders] (charset : Charset) (path : FilePath) (bytes : List UInt8) :
    Except LoadError String :=
  match charset.decode? bytes with
  | some text => .ok text
  | none => .error (.undecodable path charset.name)

def textOf (tree : Tree) (encoding : Option String) (path : FilePath) :
    Except LoadError String := do
  let charset ← charsetFor path encoding
  match tree.content path with
  | .ok bytes =>
    letI := tree.decoders
    decodeAs charset path bytes
  | .error fault => .error (.unreadable path fault)

def entriesOf (tree : Tree) (encoding : Option String) (path : FilePath) :
    Except LoadError Fields :=
  (textOf tree encoding path).map EnvFile.read

def addFile (tree : Tree) (encoding : Option String) (overlay : Overlay) (merged : Fields)
    (path : FilePath) : Action Fields := do
  Action.note (.parsing path)
  let entries ← Action.ofExcept (entriesOf tree encoding path)
  Action.noteAll ((entries.keys.filter fun key => merged.has key).map (.overridden · path))
  return overlay.fields merged entries

def mergeFiles (tree : Tree) (encoding : Option String) (overlay : Overlay)
    (paths : List FilePath) : Action Fields :=
  paths.foldlM (addFile tree encoding overlay) []

end Loading
end LayeredEnv
