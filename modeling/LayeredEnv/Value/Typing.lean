import LayeredEnv.Json.Reader
import LayeredEnv.Text.Blank

set_option autoImplicit false

namespace LayeredEnv.Value

open Decimal

def unescapeDollars : List Char → List Char
  | '\\' :: '$' :: rest => '$' :: unescapeDollars rest
  | c :: rest => c :: unescapeDollars rest
  | [] => []

def isBlankText (text : List Char) : Bool := text.all Text.isSpacing

def enclosed? (text : List Char) : Option (List Char) :=
  if text.head? = some '\x60' && text.getLast? = some '\x60' then some text.tail.dropLast else none

def boolean? (text : List Char) : Option Bool :=
  if Text.lower text = "true".toList then some true
  else if Text.lower text = "false".toList then some false
  else none

def digitIn? (radix : Nat) (c : Char) : Option Nat :=
  (Json.hexValue? c).filter (· < radix)

def radixMagnitude? (radix : Nat) (digits : List Char) : Option Magnitude :=
  if digits.isEmpty then none
  else digits.foldlM (fun total c => do
    let scaled ← Magnitude.mul? total (radix * Magnitude.one)
    scaled.add? ((← digitIn? radix c) * Magnitude.one)) 0

def radix? (marker : Char) : Option Nat :=
  if marker = 'x' || marker = 'X' then some 16
  else if marker = 'o' || marker = 'O' then some 8
  else if marker = 'b' || marker = 'B' then some 2
  else none

structure Literal where
  whole : List Char
  fraction : List Char
  exponent : Int

def digitsValue (digits : List Char) : Nat :=
  digits.foldl (fun value c => value * 10 + Json.digit c) 0

def onlyDigits? (text : List Char) : Option (List Char) :=
  if !text.isEmpty && text.all Char.isDigit then some text else none

def signed : List Char → Bool × List Char
  | '-' :: rest => (true, rest)
  | '+' :: rest => (false, rest)
  | rest => (false, rest)

def exponent? : List Char → Option Int
  | [] => some 0
  | mark :: rest =>
    if mark = 'e' || mark = 'E' then
      let (negative, digits) := signed rest
      (onlyDigits? digits).map fun digits =>
        if negative then -(digitsValue digits : Int) else digitsValue digits
    else none

def literal? (text : List Char) : Option Literal :=
  let whole := text.takeWhile Char.isDigit
  let (fraction, rest) := match text.dropWhile Char.isDigit with
    | '.' :: rest => (rest.takeWhile Char.isDigit, rest.dropWhile Char.isDigit)
    | rest => ([], rest)
  if whole.isEmpty && fraction.isEmpty then none
  else (exponent? rest).map fun exponent => ⟨whole, fraction, exponent⟩

def Literal.magnitude? (literal : Literal) : Option Magnitude :=
  Magnitude.ofDecimal? (digitsValue (literal.whole ++ literal.fraction))
    (literal.exponent - literal.fraction.length)

def decimal? (text : List Char) : Option Binary64 := do
  let (negative, digits) := signed text
  let literal ← literal? digits
  some ⟨negative, ← literal.magnitude?⟩

def double? (text : List Char) : Option Binary64 :=
  match text with
  | '0' :: marker :: digits =>
    match radix? marker with
    | some radix => (radixMagnitude? radix digits).map fun m => ⟨false, m⟩
    | none => decimal? text
  | _ => decimal? text

def numberOf (value : Binary64) : Json.Number :=
  match value.toSafeInt? with
  | some n => .int n
  | none => .float value

def number? (text : List Char) : Option Json.Number :=
  (double? (Text.trimBy Text.isSpacing text)).map numberOf

def isWrapped (opening closing : Char) (text : List Char) : Bool :=
  text.head? = some opening && text.getLast? = some closing

/-- A text in brackets is JSON; if it is not valid, the container is empty. -/
def container? (text : List Char) : Option Json :=
  if isWrapped '[' ']' text then some ((Json.read? (String.ofList text)).getD (.arr []))
  else if isWrapped '\x7b' '\x7d' text then
    some ((Json.read? (String.ofList text)).getD (.obj []))
  else none

def typedPlain (text : List Char) : Json :=
  match enclosed? text with
  | some inner => .str (String.ofList inner)
  | none =>
    match Text.dropLast? '*' text with
    | some forced => .str (String.ofList forced)
    | none =>
      match boolean? text with
      | some value => .bool value
      | none =>
        match number? text with
        | some value => .num value
        | none => (container? text).getD (.str (String.ofList text))

def typed (text : String) : Json := typedPlain (unescapeDollars text.toList)

end LayeredEnv.Value
