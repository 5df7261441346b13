import LayeredEnv.Command.Arguments
import LayeredEnv.Settings.Layer

set_option autoImplicit false

namespace LayeredEnv.Command

open Disk (FilePath)

inductive Verb
  | list
  | parse
  | load
  | exec
  | completions
deriving DecidableEq, Repr

namespace Verb

def all : List Verb := [.list, .parse, .load, .exec, .completions]

def name : Verb → String
  | .list => "list"
  | .parse => "parse"
  | .load => "load"
  | .exec => "exec"
  | .completions => "completions"

def ofName? (name : String) : Option Verb := all.find? fun verb => verb.name = name

end Verb

inductive Request
  | list (layer : Layer) (json : Bool)
  | parse (files : List FilePath) (encoding : Option String)
  | load (layer : Layer) (json : Bool)
  | exec (layer : Layer) (program : String) (arguments : List String)
  | completions (shell : String)
deriving Repr

inductive Reply
  | run (request : Request)
  | stop (verb : Option Verb) (reason : Stop)
deriving Repr

def flag (long : String) (letter : Option Char := none) : OptionSpec := ⟨long, letter, .flag⟩

def valued (long : String) (mayBeEmpty : Bool := true) (letter : Option Char := none) :
    OptionSpec := ⟨long, letter, .value mayBeEmpty⟩

def commonOptions : List OptionSpec :=
  [flag "verbose" (some 'v'),
   ⟨"help", some 'h', .stop .help⟩, ⟨"version", some 'V', .stop .version⟩]

def cascadeOptions : List OptionSpec :=
  [valued "env-name", valued "default-env-name", valued "path" false (some 'p'), valued "pattern",
   valued "files", valued "encoding", flag "purge-dotenv", flag "silent"]

def shells : List String := ["bash", "elvish", "fish", "powershell", "zsh"]

def Verb.grammar : Verb → Grammar
  | .list =>
    ⟨cascadeOptions ++ [flag "json"] ++ commonOptions, 0, some 0, none, fun _ => true⟩
  | .load =>
    ⟨cascadeOptions ++ [flag "json"] ++ commonOptions, 0, some 0, none, fun _ => true⟩
  | .exec => ⟨cascadeOptions ++ commonOptions, 1, none, some 1, fun _ => true⟩
  | .parse => ⟨valued "encoding" :: commonOptions, 1, none, none, fun file => !file.isEmpty⟩
  | .completions => ⟨commonOptions, 1, some 1, none, shells.contains⟩

def fileList (text : String) : List FilePath :=
  (((Text.splitBy ',' text.toList).map Text.trim).filter fun part => !part.isEmpty).map fun part =>
    ⟨String.ofList part⟩

def layerOf (given : Given) : Layer :=
  let flag (long : String) := if given.has long then some true else none
  { environment := given.value? "env-name"
    fallbackEnvironment := given.value? "default-env-name"
    directory := (given.value? "path").map FilePath.mk
    pattern := given.value? "pattern"
    files := (given.value? "files").map fileList
    encoding := given.value? "encoding"
    purge := flag "purge-dotenv"
    silent := flag "silent" }

def requestOf (verb : Verb) (given : Given) : Request :=
  match verb, given.operands with
  | .list, _ => .list (layerOf given) (given.has "json")
  | .load, _ => .load (layerOf given) (given.has "json")
  | .parse, files => .parse (files.map FilePath.mk) (given.value? "encoding")
  | .exec, program :: arguments => .exec (layerOf given) program arguments
  | .exec, [] => .exec (layerOf given) "" []
  | .completions, operands => .completions (operands.headD "")

def readVerb (verb : Verb) (arguments : List String) : Reply :=
  match verb.grammar.read arguments with
  | .ok given => .run (requestOf verb given)
  | .error reason => .stop (some verb) reason

def programGrammar : Grammar := ⟨commonOptions, 0, some 0, none, fun _ => true⟩

def helpFor : List String → Reply
  | [] => .stop none .help
  | ["help"] => .stop none .help
  | [name] =>
    match Verb.ofName? name with
    | some verb => .stop (some verb) .help
    | none => .stop none .usage
  | _ => .stop none .usage

def readFrom (reading : Reading) : List String → Reply
  | [] => .stop none .usage
  | argument :: rest =>
    match Verb.ofName? argument, reading.trailing with
    | some verb, false => readVerb verb rest
    | _, trailing =>
      if argument = "help" && !trailing then helpFor rest
      else match reading.step programGrammar argument with
        | .ok next => readFrom next rest
        | .error reason => .stop none reason

def read (arguments : List String) : Reply := readFrom Reading.start arguments

end LayeredEnv.Command
