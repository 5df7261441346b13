import LayeredEnv.Json.Token

set_option autoImplicit false

namespace LayeredEnv.Json

mutual

def tokens (rest : List Token) : Json → List Token
  | .null => .null :: rest
  | .bool value => .bool value :: rest
  | .num value => .num value :: rest
  | .str value => .str value.toList :: rest
  | .arr [] => .beginArray :: .endArray :: rest
  | .arr (item :: more) => .beginArray :: tokens (itemTokens rest more) item
  | .obj [] => .beginObject :: .endObject :: rest
  | .obj ((key, value) :: more) =>
    .beginObject :: .str key.toList :: .colon :: tokens (fieldTokens rest more) value

def itemTokens (rest : List Token) : List Json → List Token
  | [] => .endArray :: rest
  | item :: more => .comma :: tokens (itemTokens rest more) item

def fieldTokens (rest : List Token) : List (String × Json) → List Token
  | [] => .endObject :: rest
  | (key, value) :: more =>
    .comma :: .str key.toList :: .colon :: tokens (fieldTokens rest more) value

end

def write (value : Json) : String :=
  String.ofList ((value.tokens []).flatMap Token.write)

def indent (depth : Nat) : List Char := '\n' :: List.replicate (2 * depth) ' '

mutual

def prettyAt (depth : Nat) : Json → List Char
  | .null => Token.null.write
  | .bool value => (Token.bool value).write
  | .num value => (Token.num value).write
  | .str value => quote value.toList
  | .arr [] => ['[', ']']
  | .arr (item :: more) =>
    '[' :: (indent (depth + 1) ++ prettyAt (depth + 1) item ++ prettyItems depth more)
  | .obj [] => ['\x7b', '\x7d']
  | .obj ((key, value) :: more) =>
    '\x7b' :: (indent (depth + 1) ++ quote key.toList ++ [':', ' '] ++
      prettyAt (depth + 1) value ++ prettyFields depth more)

def prettyItems (depth : Nat) : List Json → List Char
  | [] => indent depth ++ [']']
  | item :: more =>
    ',' :: (indent (depth + 1) ++ prettyAt (depth + 1) item ++ prettyItems depth more)

def prettyFields (depth : Nat) : List (String × Json) → List Char
  | [] => indent depth ++ ['\x7d']
  | (key, value) :: more =>
    ',' :: (indent (depth + 1) ++ quote key.toList ++ [':', ' '] ++
      prettyAt (depth + 1) value ++ prettyFields depth more)

end

def pretty (value : Json) : String := String.ofList (prettyAt 0 value)

end LayeredEnv.Json
