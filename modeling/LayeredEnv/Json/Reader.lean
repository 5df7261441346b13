import LayeredEnv.Json.Token

set_option autoImplicit false

namespace LayeredEnv.Json

theorem readFraction?_length {text fraction rest : List Char}
    (h : readFraction? text = some (fraction, rest)) : rest.length ≤ text.length := by
  unfold readFraction? at h
  split at h
  next tail =>
    split at h
    next => simp at h
    next =>
      simp only [Option.some.injEq, Prod.mk.injEq] at h
      have bound := (List.dropWhile_sublist Char.isDigit (l := tail)).length_le
      simp only [← h.2, List.length_cons]
      omega
  next => simp_all

theorem readExponentDigits?_length {below : Bool} {text rest : List Char}
    {exponent : Option (Bool × List Char)}
    (h : readExponentDigits? below text = some (exponent, rest)) :
    rest.length ≤ text.length := by
  unfold readExponentDigits? at h
  split at h
  next => simp at h
  next =>
    simp only [Option.some.injEq, Prod.mk.injEq] at h
    rw [← h.2]
    exact (List.dropWhile_sublist _).length_le

theorem readExponent?_length {text rest : List Char} {exponent : Option (Bool × List Char)}
    (h : readExponent? text = some (exponent, rest)) : rest.length ≤ text.length := by
  unfold readExponent? at h
  split at h
  next mark tail =>
    split at h
    next =>
      split at h <;> have bound := readExponentDigits?_length h <;>
        simp only [List.length_cons] at * <;> omega
    next => simp_all
  next => simp_all

theorem readNumber?_length {negative : Bool} {text rest : List Char} {token : Token}
    (h : readNumber? negative text = some (token, rest)) : rest.length < text.length := by
  unfold readNumber? at h
  simp only at h
  split at h
  next => simp at h
  next accepted =>
    simp only [Option.bind_eq_bind, Option.bind_eq_some_iff, Prod.exists, Option.some.injEq,
      Prod.mk.injEq] at h
    obtain ⟨fraction, tail, first, exponent, after, second, value, _, _, same⟩ := h
    have one := readFraction?_length first
    have two := readExponent?_length second
    have parts := congrArg List.length (List.takeWhile_append_dropWhile (p := Char.isDigit)
      (l := text))
    have nonempty : text.takeWhile Char.isDigit ≠ [] := by
      intro empty
      simp [empty] at accepted
    have positive := List.length_pos_iff.mpr nonempty
    simp only [List.length_append] at parts
    rw [← same]
    omega

theorem readToken?_length {text rest : List Char} {token : Token}
    (h : readToken? text = some (token, rest)) : rest.length < text.length := by
  unfold readToken? at h
  split at h
  case h_7 =>
    simp only [Option.map_eq_some_iff, Prod.exists, Prod.mk.injEq] at h
    obtain ⟨inner, after, found, _, same⟩ := h
    have bound := readString?_length found
    simp only [List.length_cons, ← same]
    omega
  case h_8 =>
    have bound := readNumber?_length h
    simp only [List.length_cons]
    omega
  case h_12 => exact readNumber?_length h
  all_goals
    simp only [Option.some.injEq, Prod.mk.injEq] at h
    simp only [← h.2, List.length_cons]
    omega

def lex? (text : List Char) : Option (List Token) :=
  match text with
  | [] => some []
  | c :: rest =>
    if isJsonSpace c then lex? rest
    else match _found : readToken? (c :: rest) with
      | none => none
      | some (token, after) => (lex? after).map (token :: ·)
termination_by text.length
decreasing_by
  · simp
  · exact readToken?_length _found

inductive Frame
  | items (reversed : List Json)
  | fields (done : Fields)
  | field (done : Fields) (key : String)

inductive Expected
  | value
  | itemOrClose
  | fieldOrClose
  | key
  | colon (key : String)
  | separator
  | finished (value : Json)

structure Progress where
  frames : List Frame
  expected : Expected

namespace Progress

def start : Progress := ⟨[], .value⟩

def depthLimit : Nat := 127

def place (value : Json) : List Frame → Option Progress
  | [] => some ⟨[], .finished value⟩
  | .items reversed :: outer => some ⟨.items (value :: reversed) :: outer, .separator⟩
  | .field done key :: outer => some ⟨.fields (done.set key value) :: outer, .separator⟩
  | .fields _ :: _ => none

def enter (frames : List Frame) (frame : Frame) (expected : Expected) : Option Progress :=
  if frames.length < depthLimit then some ⟨frame :: frames, expected⟩ else none

def stepValue (frames : List Frame) : Token → Option Progress
  | .beginArray => enter frames (.items []) .itemOrClose
  | .beginObject => enter frames (.fields []) .fieldOrClose
  | .null => place .null frames
  | .bool value => place (.bool value) frames
  | .num value => place (.num value) frames
  | .str value => place (.str (String.ofList value)) frames
  | _ => none

def step (progress : Progress) (token : Token) : Option Progress :=
  match progress.expected, progress.frames, token with
  | .value, frames, token => stepValue frames token
  | .itemOrClose, .items _ :: outer, .endArray => place (.arr []) outer
  | .itemOrClose, frames, token => stepValue frames token
  | .fieldOrClose, .fields _ :: outer, .endObject => place (.obj []) outer
  | .fieldOrClose, frames, .str key => some ⟨frames, .colon (String.ofList key)⟩
  | .key, frames, .str key => some ⟨frames, .colon (String.ofList key)⟩
  | .colon key, .fields done :: outer, .colon => some ⟨.field done key :: outer, .value⟩
  | .separator, .items reversed :: outer, .comma => some ⟨.items reversed :: outer, .value⟩
  | .separator, .items reversed :: outer, .endArray => place (.arr reversed.reverse) outer
  | .separator, .fields done :: outer, .comma => some ⟨.fields done :: outer, .key⟩
  | .separator, .fields done :: outer, .endObject => place (.obj done) outer
  | _, _, _ => none

def value? (progress : Progress) : Option Json :=
  match progress.expected with
  | .finished value => some value
  | _ => none

end Progress

def read? (text : String) : Option Json := do
  let tokens ← lex? text.toList
  let last ← tokens.foldlM Progress.step Progress.start
  last.value?

end LayeredEnv.Json
