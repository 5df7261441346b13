import LayeredEnv.Json.Basic
import LayeredEnv.Decimal.Layout

set_option autoImplicit false

namespace LayeredEnv.Json

inductive Token
  | beginArray
  | endArray
  | beginObject
  | endObject
  | comma
  | colon
  | null
  | bool (value : Bool)
  | num (value : Number)
  | str (value : List Char)
deriving DecidableEq, Repr

def floatLayout : Decimal.Layout := ⟨-5, 15, ".0", "0.0", "-0.0", .even⟩

def Number.write : Number → String
  | .int value => toString value
  | .float value => floatLayout.write value

def hexDigit (n : Nat) : Char := Nat.digitChar n

def escape (c : Char) : List Char :=
  if c = '"' then ['\\', '"']
  else if c = '\\' then ['\\', '\\']
  else if c = '\x08' then ['\\', 'b']
  else if c = '\x0c' then ['\\', 'f']
  else if c = '\n' then ['\\', 'n']
  else if c = '\r' then ['\\', 'r']
  else if c = '\t' then ['\\', 't']
  else if c.toNat < 0x20 then
    ['\\', 'u', '0', '0', hexDigit (c.toNat / 16), hexDigit (c.toNat % 16)]
  else [c]

def quote (text : List Char) : List Char := '"' :: (text.flatMap escape ++ ['"'])

def Token.write : Token → List Char
  | .beginArray => ['[']
  | .endArray => [']']
  | .beginObject => ['\x7b']
  | .endObject => ['\x7d']
  | .comma => [',']
  | .colon => [':']
  | .null => ['n', 'u', 'l', 'l']
  | .bool true => ['t', 'r', 'u', 'e']
  | .bool false => ['f', 'a', 'l', 's', 'e']
  | .num value => value.write.toList
  | .str value => quote value

def digit (c : Char) : Nat := c.toNat - '0'.toNat

/-- Appends digits to a significand while it stays below `2 ^ 64`; the second part holds the digits
from the first one that does not fit. -/
def accumulate (significand : Nat) : List Char → Nat × List Char
  | [] => (significand, [])
  | c :: rest =>
    let next := significand * 10 + digit c
    if next < Nat.pow 2 64 then accumulate next rest else (significand, c :: rest)

def scaleStep : Nat := 308

def powerOfTen? (exponent : Nat) : Option Decimal.Magnitude :=
  Decimal.Magnitude.ofNat? (Nat.pow 10 exponent)

def scaleDown? (magnitude : Decimal.Magnitude) (exponent : Nat) : Option Decimal.Magnitude :=
  if exponent ≤ scaleStep then powerOfTen? exponent >>= magnitude.div?
  else if magnitude = 0 then some 0
  else powerOfTen? scaleStep >>= magnitude.div? >>= fun smaller =>
    scaleDown? smaller (exponent - scaleStep)
termination_by exponent
decreasing_by simp only [scaleStep] at *; omega

/-- The double that a significand with a decimal exponent is read as. The significand is rounded
first and scaled afterwards, so the result need not be the nearest double. -/
def scale? (significand : Nat) (exponent : Int) : Option Decimal.Magnitude :=
  Decimal.Magnitude.ofNat? significand >>= fun magnitude =>
    if exponent < 0 then scaleDown? magnitude exponent.natAbs
    else if exponent.natAbs ≤ scaleStep then powerOfTen? exponent.natAbs >>= magnitude.mul?
    else if magnitude = 0 then some 0 else none

structure Numeral where
  negative : Bool
  whole : List Char
  fraction : List Char
  exponent : Option (Bool × List Char)

def exponentBound : Nat := Nat.pow 2 31

def Numeral.float? (n : Numeral) : Option Number :=
  let (head, spilled) := accumulate 0 n.whole
  let (significand, dropped) := accumulate head n.fraction
  let point : Int := spilled.length - (n.fraction.length - dropped.length)
  let magnitude := match n.exponent with
    | none => scale? significand point
    | some (below, digits) =>
      let size := digits.foldl (fun value c => value * 10 + digit c) 0
      if size < exponentBound then scale? significand (if below then point - size else point + size)
      else if significand = 0 || below then some 0
      else none
  magnitude.map fun m => .float ⟨n.negative, m⟩

def Numeral.value? (n : Numeral) : Option Number :=
  match n.fraction, n.exponent, accumulate 0 n.whole with
  | [], none, (value, []) =>
    if !n.negative then some (.int value)
    else if 0 < value && value ≤ Nat.pow 2 63 then some (.int (-value))
    else n.float?
  | _, _, _ => n.float?

def readFraction? : List Char → Option (List Char × List Char)
  | '.' :: rest =>
    if (rest.takeWhile Char.isDigit).isEmpty then none
    else some (rest.takeWhile Char.isDigit, rest.dropWhile Char.isDigit)
  | rest => some ([], rest)

def readExponentDigits? (below : Bool) (rest : List Char) :
    Option (Option (Bool × List Char) × List Char) :=
  if (rest.takeWhile Char.isDigit).isEmpty then none
  else some (some (below, rest.takeWhile Char.isDigit), rest.dropWhile Char.isDigit)

def readExponent? : List Char → Option (Option (Bool × List Char) × List Char)
  | mark :: rest =>
    if mark = 'e' || mark = 'E' then
      match rest with
      | '-' :: digits => readExponentDigits? true digits
      | '+' :: digits => readExponentDigits? false digits
      | digits => readExponentDigits? false digits
    else some (none, mark :: rest)
  | [] => some (none, [])

def readNumber? (negative : Bool) (text : List Char) : Option (Token × List Char) :=
  let whole := text.takeWhile Char.isDigit
  if whole.isEmpty || (whole.head? = some '0' && 1 < whole.length) then none
  else do
    let (fraction, rest) ← readFraction? (text.dropWhile Char.isDigit)
    let (exponent, rest) ← readExponent? rest
    let value ← Numeral.value? ⟨negative, whole, fraction, exponent⟩
    some (.num value, rest)

def hexValue? (c : Char) : Option Nat :=
  if c.isDigit then some (c.toNat - '0'.toNat)
  else if 'a' ≤ c && c ≤ 'f' then some (c.toNat - 'a'.toNat + 10)
  else if 'A' ≤ c && c ≤ 'F' then some (c.toNat - 'A'.toNat + 10)
  else none

def unit? (a b c d : Char) : Option Nat := do
  some (((← hexValue? a) * 16 + (← hexValue? b)) * 256 +
    (← hexValue? c) * 16 + (← hexValue? d))

def simpleEscape? (c : Char) : Option Char :=
  if c = '"' || c = '\\' || c = '/' then some c
  else if c = 'b' then some '\x08'
  else if c = 'f' then some '\x0c'
  else if c = 'n' then some '\n'
  else if c = 'r' then some '\r'
  else if c = 't' then some '\t'
  else none

def readString? : List Char → Option (List Char × List Char)
  | [] => none
  | '"' :: rest => some ([], rest)
  | '\\' :: 'u' :: a :: b :: c :: d :: rest =>
    match unit? a b c d with
    | none => none
    | some unit =>
      if unit < 0xD800 || 0xE000 ≤ unit then
        (readString? rest).map fun (text, after) => (Char.ofNat unit :: text, after)
      else if 0xDC00 ≤ unit then none
      else match rest with
        | '\\' :: 'u' :: e :: f :: g :: h :: rest =>
          match unit? e f g h with
          | none => none
          | some low =>
            if low < 0xDC00 || 0xE000 ≤ low then none
            else (readString? rest).map fun (text, after) =>
              (Char.ofNat (0x10000 + (unit - 0xD800) * 0x400 + (low - 0xDC00)) :: text, after)
        | _ => none
  | '\\' :: c :: rest =>
    match simpleEscape? c with
    | none => none
    | some plain => (readString? rest).map fun (text, after) => (plain :: text, after)
  | c :: rest =>
    if c = '\\' || c.toNat < 0x20 then none
    else (readString? rest).map fun (text, after) => (c :: text, after)

def isJsonSpace (c : Char) : Bool := c = ' ' || c = '\t' || c = '\n' || c = '\r'

def readToken? : List Char → Option (Token × List Char)
  | '[' :: rest => some (.beginArray, rest)
  | ']' :: rest => some (.endArray, rest)
  | '\x7b' :: rest => some (.beginObject, rest)
  | '\x7d' :: rest => some (.endObject, rest)
  | ',' :: rest => some (.comma, rest)
  | ':' :: rest => some (.colon, rest)
  | '"' :: rest => (readString? rest).map fun (text, after) => (.str text, after)
  | '-' :: rest => readNumber? true rest
  | 'n' :: 'u' :: 'l' :: 'l' :: rest => some (.null, rest)
  | 't' :: 'r' :: 'u' :: 'e' :: rest => some (.bool true, rest)
  | 'f' :: 'a' :: 'l' :: 's' :: 'e' :: rest => some (.bool false, rest)
  | text => readNumber? false text

theorem readString?_length {text inner rest : List Char}
    (h : readString? text = some (inner, rest)) : rest.length < text.length := by
  fun_induction readString? text generalizing inner rest <;>
    simp_all only [Option.map_eq_some_iff, Prod.mk.injEq, Option.some.injEq, List.length_cons,
      reduceCtorEq] <;> grind

end LayeredEnv.Json
