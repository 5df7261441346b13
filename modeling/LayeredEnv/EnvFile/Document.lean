import LayeredEnv.EnvFile.Assignment
import LayeredEnv.EnvFile.Quote
import LayeredEnv.Json.Basic
import LayeredEnv.Text.Line

set_option autoImplicit false

namespace LayeredEnv.EnvFile

inductive Mode
  | seeking
  | continued (key : String) (parts : List (List Char))
  | quoted (key : String) (quote : Quote) (parts : List (List Char))
deriving DecidableEq, Repr

structure Scan where
  entries : Fields
  mode : Mode
deriving DecidableEq, Repr

namespace Scan

def start : Scan := ⟨[], .seeking⟩

def record (entries : Fields) (key : String) (value : List Char) : Scan :=
  ⟨entries.set key (.str (String.ofList value)), .seeking⟩

def isBlankOrComment (line : List Char) : Bool :=
  match Text.trim line with
  | [] => true
  | c :: _ => c = '#'

def openQuoted (entries : Fields) (key : String) (quote : Quote) (text : List Char) : Scan :=
  match quote.splitClosing? text with
  | some (value, _) => record entries key (quote.decode value)
  | none => ⟨entries, .quoted key quote [text]⟩

def openUnquoted (entries : Fields) (key : String) (text : List Char) : Scan :=
  match Text.dropLast? '\\' text with
  | some fragment => ⟨entries, .continued key [Text.trim fragment]⟩
  | none => record entries key (decodeUnquoted text)

def openEntry (entries : Fields) (key : String) (text : List Char) : Scan :=
  match Text.trim text with
  | [] => openUnquoted entries key text
  | c :: rest =>
    match Quote.ofChar? c with
    | some quote => openQuoted entries key quote rest
    | none => openUnquoted entries key text

def seek (entries : Fields) (line : List Char) : Scan :=
  if isBlankOrComment line then ⟨entries, .seeking⟩
  else match readHead? line with
    | some (key, text) => openEntry entries (String.ofList key) text
    | none => ⟨entries, .seeking⟩

def continueUnquoted (entries : Fields) (key : String) (parts : List (List Char))
    (line : List Char) : Scan :=
  if isBlankOrComment line then ⟨entries, .continued key parts⟩
  else match Text.dropLast? '\\' line with
    | some fragment => ⟨entries, .continued key (parts ++ [Text.trim fragment])⟩
    | none =>
      record entries key (decodeUnquoted (Text.joinLines (parts ++ [Text.trim line])))

def continueQuoted (entries : Fields) (key : String) (quote : Quote) (parts : List (List Char))
    (line : List Char) : Scan :=
  match quote.splitClosing? line with
  | some (last, _) => record entries key (quote.decode (Text.joinLines (parts ++ [last])))
  | none => ⟨entries, .quoted key quote (parts ++ [line])⟩

def step (scan : Scan) (line : List Char) : Scan :=
  match scan.mode with
  | .seeking => seek scan.entries line
  | .continued key parts => continueUnquoted scan.entries key parts line
  | .quoted key quote parts => continueQuoted scan.entries key quote parts line

def finish (scan : Scan) : Fields :=
  match scan.mode with
  | .seeking => scan.entries
  | .continued key parts =>
    (record scan.entries key (decodeUnquoted (Text.joinLines parts))).entries
  | .quoted key quote parts =>
    (record scan.entries key (quote.decode (Text.joinLines parts))).entries

def run (text : List Char) : Scan := (Text.lines text).foldl step start

end Scan

def read (text : String) : Fields := (Scan.run text.toList).finish

end LayeredEnv.EnvFile
