import LayeredEnv.Text.Line

set_option autoImplicit false

namespace LayeredEnv.Command

inductive Stop
  | usage
  | help
  | version
deriving DecidableEq, Repr

inductive OptionKind
  | flag
  | value (mayBeEmpty : Bool)
  | stop (reason : Stop)
deriving DecidableEq, Repr

structure OptionSpec where
  long : String
  letter : Option Char
  kind : OptionKind
deriving DecidableEq, Repr

structure Grammar where
  options : List OptionSpec
  fewest : Nat
  most : Option Nat
  /-- From this many operands on, the rest is operands even if it looks like options. -/
  trailingFrom : Option Nat
  accepts : String → Bool

structure Given where
  options : List (String × String)
  operands : List String
deriving Repr

structure Reading where
  given : Given
  pending : Option OptionSpec
  trailing : Bool

namespace Given

def value? (given : Given) (long : String) : Option String := given.options.lookup long

def has (given : Given) (long : String) : Bool := (given.value? long).isSome

end Given

namespace Reading

def start : Reading := ⟨⟨[], []⟩, none, false⟩

def record (reading : Reading) (spec : OptionSpec) (value : String) : Except Stop Reading :=
  if reading.given.has spec.long || (spec.kind = .value false && value.isEmpty) then .error .usage
  else .ok ⟨⟨reading.given.options ++ [(spec.long, value)], reading.given.operands⟩, none,
    reading.trailing⟩

def inTrailingPlace (grammar : Grammar) (reading : Reading) : Bool :=
  match grammar.trailingFrom with
  | some count => count ≤ reading.given.operands.length
  | none => false

def operand (grammar : Grammar) (reading : Reading) (text : String) : Except Stop Reading :=
  let full := match grammar.most with
    | some most => most ≤ reading.given.operands.length
    | none => false
  if full || !grammar.accepts text then .error .usage
  else .ok ⟨⟨reading.given.options, reading.given.operands ++ [text]⟩, none,
    reading.trailing || reading.inTrailingPlace grammar⟩

def plain (grammar : Grammar) (reading : Reading) (text : String) : Except Stop Reading :=
  match reading.pending with
  | some spec => reading.record spec text
  | none => reading.operand grammar text

def option (reading : Reading) (spec : OptionSpec) : Except Stop Reading :=
  if reading.pending.isSome then .error .usage
  else match spec.kind with
    | .flag => reading.record spec ""
    | .value _ => .ok { reading with pending := some spec }
    | .stop reason => .error reason

def optionWith (reading : Reading) (spec : OptionSpec) (value : String) : Except Stop Reading :=
  match spec.kind with
  | .value _ => if reading.pending.isSome then .error .usage else reading.record spec value
  | _ => .error .usage

def longOption (grammar : Grammar) (reading : Reading) (argument : String) (body : List Char) :
    Except Stop Reading :=
  let name := String.ofList (body.takeWhile (· ≠ '='))
  match grammar.options.find? fun spec => spec.long = name with
  | some spec =>
    match body.dropWhile (· ≠ '=') with
    | _ :: value => reading.optionWith spec (String.ofList value)
    | [] => reading.option spec
  | none =>
    if reading.inTrailingPlace grammar then reading.plain grammar argument else .error .usage

def letter? (grammar : Grammar) (c : Char) : Option OptionSpec :=
  grammar.options.find? fun spec => spec.letter = some c

def cluster (grammar : Grammar) (reading : Reading) : List Char → Except Stop Reading
  | [] => .ok reading
  | c :: rest =>
    match letter? grammar c with
    | none => .error .usage
    | some spec =>
      match spec.kind, rest with
      | .value _, '=' :: value => reading.optionWith spec (String.ofList value)
      | .value _, d :: more => reading.optionWith spec (String.ofList (d :: more))
      | _, rest =>
        match reading.option spec with
        | .ok next => cluster grammar next rest
        | .error stop => .error stop

def step (grammar : Grammar) (reading : Reading) (argument : String) : Except Stop Reading :=
  if reading.trailing then
    if reading.pending.isSome then .error .usage else reading.operand grammar argument
  else match argument.toList with
    | ['-', '-'] =>
      if reading.pending.isSome then .error .usage else .ok { reading with trailing := true }
    | '-' :: '-' :: body => longOption grammar reading argument body
    | '-' :: c :: letters =>
      if reading.inTrailingPlace grammar &&
          (c :: letters).any (fun letter => (letter? grammar letter).isNone) then
        reading.plain grammar argument
      else cluster grammar reading (c :: letters)
    | _ => reading.plain grammar argument

def finish (grammar : Grammar) (reading : Reading) : Except Stop Given :=
  if reading.pending.isSome || reading.given.operands.length < grammar.fewest then .error .usage
  else .ok reading.given

end Reading

def Grammar.read (grammar : Grammar) (arguments : List String) : Except Stop Given := do
  (← arguments.foldlM (Reading.step grammar) Reading.start).finish grammar

end LayeredEnv.Command
