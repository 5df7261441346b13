import LayeredEnv.Text.Blank

set_option autoImplicit false

namespace LayeredEnv.EnvFile

inductive Quote
  | double
  | single
  | backtick
deriving DecidableEq, Repr

namespace Quote

def mark : Quote → Char
  | .double => '"'
  | .single => '\''
  | .backtick => '\x60'

def ofChar? (c : Char) : Option Quote :=
  if c = '"' then some .double
  else if c = '\'' then some .single
  else if c = '\x60' then some .backtick
  else none

/-- Splits a text at its first quote that no backslash stands directly before. The quote itself is
in neither part; `shielded` says that a backslash stands before the text. -/
def splitFrom? (quote : Quote) (shielded : Bool) : List Char → Option (List Char × List Char)
  | [] => none
  | c :: rest =>
    if c = quote.mark && !shielded then some ([], rest)
    else (splitFrom? quote (c = '\\') rest).map fun (before, after) => (c :: before, after)

def splitClosing? (quote : Quote) (text : List Char) : Option (List Char × List Char) :=
  quote.splitFrom? false text

def utf8Length (text : List Char) : Nat := text.foldl (fun size c => size + c.utf8Size) 0

def closingOffset? (quote : Quote) (text : String) : Option Nat :=
  (quote.splitClosing? text.toList).map fun (before, _) => utf8Length before

def escaped? (c : Char) : Option Char :=
  if c = 'n' then some '\n'
  else if c = 'r' then some '\r'
  else if c = 't' then some '\t'
  else if c = '\\' then some '\\'
  else if c = '"' then some '"'
  else none

def unescape : List Char → List Char
  | '\\' :: c :: rest =>
    match escaped? c with
    | some plain => plain :: unescape rest
    | none => '\\' :: c :: unescape rest
  | c :: rest => c :: unescape rest
  | [] => []

def decode : Quote → List Char → List Char
  | .double, text => unescape text
  | .single, text => text
  | .backtick, text => text

end Quote

/-- Removes each backslash at the end of a line, with the line end and the blanks behind it. -/
def joinContinued (skipping : Bool) : List Char → List Char
  | '\\' :: '\n' :: rest => joinContinued true rest
  | c :: rest =>
    if skipping && Text.isBlank c then joinContinued true rest else c :: joinContinued false rest
  | [] => []

def decodeUnquoted (text : List Char) : List Char := joinContinued false (Text.trim text)

end LayeredEnv.EnvFile
