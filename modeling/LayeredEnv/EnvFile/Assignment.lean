import LayeredEnv.Text.Blank

set_option autoImplicit false

namespace LayeredEnv.EnvFile

def isKeyStart (c : Char) : Bool := c.isAlpha || c = '_'

def isKeyChar (c : Char) : Bool := c.isAlphanum || c = '_'

def isKey (key : List Char) : Bool :=
  match key with
  | [] => false
  | c :: rest => isKeyStart c && rest.all isKeyChar

def readAssignment? (text : List Char) : Option (List Char × List Char) :=
  let key := text.takeWhile isKeyChar
  match (text.dropWhile isKeyChar).dropWhile Text.isBlank with
  | '=' :: rest => if isKey key then some (key, rest.dropWhile Text.isBlank) else none
  | _ => none

def exportWord : List Char := "export".toList

def dropExport? (line : List Char) : Option (List Char) :=
  if exportWord.isPrefixOf line then
    match line.drop exportWord.length with
    | c :: rest => if Text.isBlank c then some (rest.dropWhile Text.isBlank) else none
    | [] => none
  else none

/-- Key and written value of a line that starts an entry. The word `export` is a key itself if an
equals sign follows it. -/
def readHead? (line : List Char) : Option (List Char × List Char) :=
  ((dropExport? line).bind readAssignment?).or (readAssignment? line)

end LayeredEnv.EnvFile
