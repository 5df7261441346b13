set_option autoImplicit false

namespace LayeredEnv.Text

def isBlank (c : Char) : Bool :=
  let n := c.toNat
  (9 ≤ n && n ≤ 13) || n == 0x20 || n == 0x85 || n == 0xA0 || n == 0x1680 ||
    (0x2000 ≤ n && n ≤ 0x200A) || n == 0x2028 || n == 0x2029 || n == 0x202F ||
    n == 0x205F || n == 0x3000

def isSpacing (c : Char) : Bool :=
  isBlank c || c == '\uFEFF'

def dropTail (p : Char → Bool) (text : List Char) : List Char :=
  (text.reverse.dropWhile p).reverse

def trimBy (p : Char → Bool) (text : List Char) : List Char :=
  dropTail p (text.dropWhile p)

def trim (text : List Char) : List Char := trimBy isBlank text

def lower (text : List Char) : List Char := text.map Char.toLower

def dropLast? (c : Char) (text : List Char) : Option (List Char) :=
  if text.getLast? = some c then some text.dropLast else none

end LayeredEnv.Text
