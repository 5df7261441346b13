set_option autoImplicit false

namespace LayeredEnv.Value

def isNameChar (c : Char) : Bool := c.isAlphanum || c = '_' || c = '.'

structure Reference where
  name : String
  fallback : List Char
deriving DecidableEq, Repr

namespace Reference

def nesting : Nat := 3

/-- Splits off a fallback inside `depth` open references, with `closings` closing braces ahead. It
ends before the first closing brace that belongs to none of them. An opening counts only while there
are braces left to close it and all that are open around it. -/
def splitFallback (closings depth : Nat) : List Char → List Char × List Char
  | [] => ([], [])
  | '$' :: '\x7b' :: rest =>
    let inner := if depth < nesting && depth < closings then depth + 1 else depth
    let (text, after) := splitFallback closings inner rest
    ('$' :: '\x7b' :: text, after)
  | c :: rest =>
    if c = '\x7d' then
      match depth with
      | 0 => ([], c :: rest)
      | outer + 1 =>
        let (text, after) := splitFallback (closings - 1) outer rest
        (c :: text, after)
    else let (text, after) := splitFallback closings depth rest; (c :: text, after)

def takeFallback (text : List Char) : List Char × List Char :=
  splitFallback (text.count '\x7d') 0 text

def readFallback (text : List Char) : List Char × List Char :=
  match text with
  | ':' :: '-' :: body => let (fallback, after) := takeFallback body
    if fallback.isEmpty then ([], text) else (fallback, after)
  | '-' :: body => let (fallback, after) := takeFallback body
    if fallback.isEmpty then ([], text) else (fallback, after)
  | _ => ([], text)

def dropOpening : List Char → List Char
  | '\x7b' :: rest => rest
  | text => text

/-- A closing brace belongs to the reference, whether it has an opening one or not. -/
def dropClosing : List Char → List Char
  | '\x7d' :: rest => rest
  | text => text

def read? (text : List Char) : Option (Reference × List Char) :=
  let body := dropOpening text
  let name := body.takeWhile isNameChar
  if name.isEmpty then none
  else
    let (fallback, after) := readFallback (body.dropWhile isNameChar)
    some (⟨String.ofList name, fallback⟩, dropClosing after)

theorem splitFallback_length (closings depth : Nat) (text : List Char) :
    (splitFallback closings depth text).1.length + (splitFallback closings depth text).2.length =
      text.length := by
  fun_induction splitFallback closings depth text <;> simp_all <;> omega

theorem takeFallback_length (text : List Char) :
    (takeFallback text).1.length + (takeFallback text).2.length = text.length :=
  splitFallback_length _ 0 text

theorem readFallback_length (text : List Char) :
    (readFallback text).1.length + (readFallback text).2.length ≤ text.length := by
  unfold readFallback
  split
  next body =>
    have parts := takeFallback_length body
    simp only
    split
    next => simp
    next => simp; omega
  next body =>
    have parts := takeFallback_length body
    simp only
    split
    next => simp
    next => simp; omega
  next => simp

theorem dropOpening_length (text : List Char) : (dropOpening text).length ≤ text.length := by
  unfold dropOpening; split <;> simp

theorem dropClosing_length (text : List Char) : (dropClosing text).length ≤ text.length := by
  unfold dropClosing; split <;> simp

theorem read?_length {text rest : List Char} {reference : Reference}
    (h : read? text = some (reference, rest)) :
    reference.fallback.length + rest.length < text.length := by
  unfold read? at h
  simp only at h
  split at h
  next => simp at h
  next named =>
    simp only [Option.some.injEq, Prod.mk.injEq] at h
    obtain ⟨rfl, rfl⟩ := h
    have opening := dropOpening_length text
    have parts := congrArg List.length (List.takeWhile_append_dropWhile (p := isNameChar)
      (l := dropOpening text))
    have some := List.length_pos_iff.mpr (mt List.isEmpty_iff.mpr named)
    have inner := readFallback_length ((dropOpening text).dropWhile isNameChar)
    have closing := dropClosing_length
      (readFallback ((dropOpening text).dropWhile isNameChar)).2
    simp only [List.length_append] at parts
    simp only
    omega

end Reference

inductive Piece
  | plain (c : Char)
  | escaped (source : List Char)
  | reference (target : Reference)
deriving DecidableEq, Repr

namespace Piece

def next? : List Char → Option (Piece × List Char)
  | [] => none
  | '\\' :: '$' :: text =>
    match Reference.read? text with
    | some (_, rest) => some (.escaped ('$' :: text.take (text.length - rest.length)), rest)
    | none => some (.plain '\\', '$' :: text)
  | c :: text =>
    if c = '$' then
      match Reference.read? text with
      | some (target, rest) => some (.reference target, rest)
      | none => some (.plain c, text)
    else some (.plain c, text)

theorem next?_length {text rest : List Char} {piece : Piece}
    (h : next? text = some (piece, rest)) : rest.length < text.length := by
  unfold next? at h
  split at h
  next => simp at h
  next body =>
    split at h
    next target after found =>
      have bound := Reference.read?_length found
      simp only [Option.some.injEq, Prod.mk.injEq] at h
      simp only [← h.2, List.length_cons]
      omega
    next => simp_all
  next c body _ =>
    split at h
    next =>
      split at h
      next target after found =>
        have bound := Reference.read?_length found
        simp only [Option.some.injEq, Prod.mk.injEq] at h
        simp only [← h.2, List.length_cons]
        omega
      next => simp_all
    next => simp_all

theorem fallback_length {text rest : List Char} {target : Reference}
    (h : next? text = some (.reference target, rest)) :
    target.fallback.length < text.length := by
  unfold next? at h
  split at h
  next => simp at h
  next => split at h <;> simp at h
  next c body _ =>
    split at h
    next =>
      split at h
      next found =>
        have bound := Reference.read?_length found
        simp only [Option.some.injEq, Prod.mk.injEq, Piece.reference.injEq] at h
        simp only [← h.1, List.length_cons]
        omega
      next => simp at h
    next => simp at h

end Piece
end LayeredEnv.Value
