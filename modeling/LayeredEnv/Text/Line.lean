set_option autoImplicit false

namespace LayeredEnv.Text

def lines : List Char → List (List Char)
  | [] => [[]]
  | '\r' :: '\n' :: rest => [] :: lines rest
  | c :: rest =>
    if c = '\r' || c = '\n' then [] :: lines rest
    else match lines rest with
      | [] => [[c]]
      | line :: more => (c :: line) :: more

def joinLines (parts : List (List Char)) : List Char := ['\n'].intercalate parts

def splitBy (mark : Char) : List Char → List (List Char)
  | [] => [[]]
  | c :: rest =>
    if c = mark then [] :: splitBy mark rest
    else match splitBy mark rest with
      | [] => [[c]]
      | part :: more => (c :: part) :: more

end LayeredEnv.Text
