import LayeredEnv.Charset.Label

set_option autoImplicit false

namespace LayeredEnv.Charset

def mark : Charset → List UInt8
  | .utf8 => [0xEF, 0xBB, 0xBF]
  | .utf16le => [0xFF, 0xFE]
  | .utf16be => [0xFE, 0xFF]
  | _ => []

def dropMark (charset : Charset) (bytes : List UInt8) : List UInt8 :=
  if charset.mark.isPrefixOf bytes then bytes.drop charset.mark.length else bytes

def units? (join : UInt8 → UInt8 → Nat) : List UInt8 → Option (List Nat)
  | [] => some []
  | [_] => none
  | a :: b :: rest => (units? join rest).map (join a b :: ·)

def ofUnits? : List Nat → Option (List Char)
  | [] => some []
  | unit :: rest =>
    if unit < 0xD800 || 0xE000 ≤ unit then (ofUnits? rest).map (Char.ofNat unit :: ·)
    else if 0xDC00 ≤ unit then none
    else match rest with
      | low :: rest =>
        if 0xDC00 ≤ low && low < 0xE000 then
          (ofUnits? rest).map
            (Char.ofNat (0x10000 + (unit - 0xD800) * 0x400 + (low - 0xDC00)) :: ·)
        else none
      | [] => none

def windows1252Table : List Nat :=
  [0x20AC, 0x81, 0x201A, 0x192, 0x201E, 0x2026, 0x2020, 0x2021,
   0x2C6, 0x2030, 0x160, 0x2039, 0x152, 0x8D, 0x17D, 0x8F,
   0x90, 0x2018, 0x2019, 0x201C, 0x201D, 0x2022, 0x2013, 0x2014,
   0x2DC, 0x2122, 0x161, 0x203A, 0x153, 0x9D, 0x17E, 0x178]

def latin9Table : List (Nat × Nat) :=
  [(0xA4, 0x20AC), (0xA6, 0x160), (0xA8, 0x161), (0xB4, 0x17D), (0xB8, 0x17E), (0xBC, 0x152),
   (0xBD, 0x153), (0xBE, 0x178)]

def windows1252Char (byte : UInt8) : Char :=
  let n := byte.toNat
  Char.ofNat (if 0x80 ≤ n && n < 0xA0 then windows1252Table.getD (n - 0x80) n else n)

def latin9Char (byte : UInt8) : Char :=
  Char.ofNat ((latin9Table.lookup byte.toNat).getD byte.toNat)

def userDefinedChar (byte : UInt8) : Char :=
  Char.ofNat (if byte.toNat < 0x80 then byte.toNat else 0xF780 + (byte.toNat - 0x80))

/-- How the encodings without a table are read, by the name of the encoding. -/
class Decoders where
  decode? : String → List UInt8 → Option String

-- Without decoders such bytes are refused.
instance : Decoders := ⟨fun _ _ => none⟩

def decodePlain? [Decoders] : Charset → List UInt8 → Option String
  | .utf8, bytes => String.fromUTF8? ⟨bytes.toArray⟩
  | .utf16le, bytes =>
    (units? (fun a b => b.toNat * 256 + a.toNat) bytes >>= ofUnits?).map String.ofList
  | .utf16be, bytes =>
    (units? (fun a b => a.toNat * 256 + b.toNat) bytes >>= ofUnits?).map String.ofList
  | .windows1252, bytes => some (String.ofList (bytes.map windows1252Char))
  | .latin9, bytes => some (String.ofList (bytes.map latin9Char))
  | .userDefined, bytes => some (String.ofList (bytes.map userDefinedChar))
  | .replacement, bytes => if bytes.isEmpty then some "" else none
  | .other name, bytes => Decoders.decode? name bytes

def decode? [Decoders] (charset : Charset) (bytes : List UInt8) : Option String :=
  charset.decodePlain? (charset.dropMark bytes)

end LayeredEnv.Charset
