import LayeredEnv.Command.Report
import LayeredEnv.Command.Request
import LayeredEnv.Loading.Load

set_option autoImplicit false

namespace LayeredEnv.Command

open Disk (FilePath Tree)

structure Outcome where
  code : Nat
  output : String
  errors : String
deriving Repr

abbrev Environment := List (String × String)

-- What a started program leaves. One that a signal has ended has no code.
structure Ended where
  code : Option Nat
  output : String
  errors : String

/-- How programs run, from their environment, name and arguments: what is left, or the text of the
system for why there is no such run. -/
class Programs where
  start : Tree → Environment → String → List String → Except String Ended

-- Without programs none can be found.
instance : Programs := ⟨fun _ _ _ _ => .error Disk.Fault.missing.message⟩

structure World where
  tree : Tree
  vars : Variables
  [programs : Programs]

namespace Outcome

def done (output : String) : Outcome := ⟨0, output, ""⟩

def failure (report : Report) : Outcome := ⟨1, "", report.text ++ "\n"⟩

def usageCode : Nat := 2

def abortCode : Nat := 101

end Outcome

def programName : String := "envcascade"

def programVersion : String := "0.1.0"

def line (text : String) : String := text ++ "\n"

def versionText (verb : Option Verb) : String :=
  match verb with
  | some verb => line (programName ++ "-" ++ verb.name ++ " " ++ programVersion)
  | none => line (programName ++ " " ++ programVersion)

def usageOf (option : OptionSpec) : String :=
  let letter := (option.letter.map fun c => "-" ++ c.toString ++ ", ").getD ""
  let value := match option.kind with
    | .value _ => " <VALUE>"
    | _ => ""
  "  " ++ letter ++ "--" ++ option.long ++ value

def helpText (verb : Option Verb) : String :=
  match verb with
  | some verb =>
    "\n".intercalate
      (("Usage: " ++ programName ++ " " ++ verb.name ++ " [OPTIONS]") :: "" ::
        verb.grammar.options.map usageOf) ++ "\n"
  | none =>
    "\n".intercalate
      (("Usage: " ++ programName ++ " [OPTIONS] <COMMAND>") :: "" ::
        Verb.all.map fun verb => "  " ++ verb.name) ++ "\n"

def completionText (shell : String) : String :=
  let names := " ".intercalate (Verb.all.map Verb.name)
  match shell with
  | "fish" => line ("complete -c " ++ programName ++ " -a \"" ++ names ++ "\"")
  | "zsh" => line ("#compdef " ++ programName) ++ line ("compadd " ++ names)
  | "bash" => line ("complete -W \"" ++ names ++ "\" " ++ programName)
  | _ => line names

def settingsOf (world : World) (layer : Layer) : Settings :=
  (layer.or (Layer.ofVariables world.vars)).apply {}

def perform {α : Type} (world : World) (action : Action α) :
    Except LoadError (α × Session) :=
  match action ⟨world.vars, []⟩ with
  | .ok value session => .ok (value, session)
  | .error error _ => .error error

def cascadeJson (files : List Loading.CascadeFile) : Json :=
  .arr (files.map fun file => .obj [("role", .str file.role.label), ("path", .str file.path.text)])

def runList (world : World) (layer : Layer) (json : Bool) : Outcome :=
  match perform world (Loading.planned world.tree (settingsOf world layer)) with
  | .ok (files, _) =>
    if json then .done (line (cascadeJson files).pretty)
    else .done (String.join (files.map fun file => line file.path.text))
  | .error error => .failure ⟨"Failed to list env files", error.causes⟩

def runParse (world : World) (files : List FilePath) (encoding : Option String) : Outcome :=
  match perform world (Loading.mergeFiles world.tree encoding Overlay.default files) with
  | .ok (entries, _) => .done (line (Json.obj entries).pretty)
  | .error error => .failure ⟨"Failed to parse env files", error.causes⟩

def loadFailure (error : LoadError) : Outcome :=
  .failure ⟨"Failed to load env cascade", error.causes⟩

def runLoad (world : World) (layer : Layer) (json : Bool) : Outcome :=
  match perform world (Loading.cascade world.tree (settingsOf world layer)) with
  | .ok (entries, _) =>
    if json then .done (line (Json.obj entries).pretty)
    else .done (String.join (entries.map fun entry => line (entry.1 ++ "=" ++ entry.2.render)))
  | .error error => loadFailure error

def unsetNames (notices : List Notice) : List String :=
  notices.filterMap fun notice =>
    match notice with
    | .unsetting name => some name
    | _ => none

/-- The environment of a program: what was never unset in the order of names, then what the load has
set in the order of the entries. -/
def environmentAfter (world : World) (entries : Fields) (session : Session) : Environment :=
  let removed := unsetNames session.notices
  let kept := world.vars.toList.filter fun entry => entry.1 ∉ removed
  let added := entries.keys.filterMap fun key =>
    if (kept.lookup key).isSome then none
    else (session.vars[key]?).map fun value => (key, value)
  kept ++ added

def terminatedReport (program : String) : Report :=
  ⟨"\x60" ++ program ++ "\x60 was terminated by a signal", []⟩

def runExec (world : World) (layer : Layer) (program : String) (arguments : List String) :
    Outcome :=
  match perform world (Loading.cascade world.tree (settingsOf world layer)) with
  | .error error => loadFailure error
  | .ok (entries, session) =>
    let environment := environmentAfter world entries session
    if environment.any fun entry => entry.2.toList.contains '\x00' then
      ⟨Outcome.abortCode, "", ""⟩
    else match world.programs.start world.tree environment program arguments with
      | .ok ⟨some code, output, errors⟩ => ⟨code, output, errors⟩
      | .ok ⟨none, output, errors⟩ => ⟨1, output, errors ++ line (terminatedReport program).text⟩
      | .error cause => .failure ⟨"Failed to run \x60" ++ program ++ "\x60", [cause]⟩

def runRequest (world : World) : Request → Outcome
  | .list layer json => runList world layer json
  | .parse files encoding => runParse world files encoding
  | .load layer json => runLoad world layer json
  | .exec layer program arguments => runExec world layer program arguments
  | .completions shell => .done (completionText shell)

def run (world : World) (arguments : List String) : Outcome :=
  match read arguments with
  | .run request => runRequest world request
  | .stop verb .help => .done (helpText verb)
  | .stop verb .version => .done (versionText verb)
  | .stop _ .usage => ⟨Outcome.usageCode, "", "error: the command line is not understood\n"⟩

end LayeredEnv.Command
