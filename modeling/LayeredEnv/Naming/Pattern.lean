import LayeredEnv.Text.Word

set_option autoImplicit false

namespace LayeredEnv.Naming

structure Slot where
  lead : List Char
  trail : List Char
deriving DecidableEq, Repr

def isGap (c : Char) : Bool := !Text.isWord c

def splitLast? (mark : Char) : List Char → Option (List Char × List Char)
  | [] => none
  | c :: rest =>
    match splitLast? mark rest with
    | some (before, after) => some (c :: before, after)
    | none => if c = mark then some ([], rest) else none

/-- Reads a slot behind its opening bracket. A slot reaches as far as it can: up to the last closing
bracket before the next word character. -/
def readSlot? (token text : List Char) : Option (Slot × List Char) :=
  let body := text.dropWhile isGap
  if token.isPrefixOf body then
    let tail := body.drop token.length
    (splitLast? ']' (tail.takeWhile isGap)).map fun (trail, gap) =>
      (⟨text.takeWhile isGap, trail⟩, gap ++ tail.dropWhile isGap)
  else none

theorem splitLast?_length {mark : Char} {text before after : List Char}
    (h : splitLast? mark text = some (before, after)) : after.length < text.length := by
  induction text generalizing before after with
  | nil => simp [splitLast?] at h
  | cons c rest ih =>
    simp only [splitLast?] at h
    split at h
    next found =>
      simp only [Option.some.injEq, Prod.mk.injEq] at h
      have bound := ih found
      simp only [← h.2, List.length_cons]
      omega
    next =>
      split at h
      next => simp_all
      next => simp at h

theorem readSlot?_length {token text rest : List Char} {slot : Slot}
    (h : readSlot? token text = some (slot, rest)) : rest.length < text.length := by
  unfold readSlot? at h
  simp only at h
  split at h
  next =>
    simp only [Option.map_eq_some_iff, Prod.exists, Prod.mk.injEq] at h
    obtain ⟨trail, gap, found, _, same⟩ := h
    have bound := splitLast?_length found
    have body := (List.dropWhile_sublist isGap (l := text)).length_le
    have parts := congrArg List.length (List.takeWhile_append_dropWhile (p := isGap)
      (l := (text.dropWhile isGap).drop token.length))
    simp only [List.length_append, List.length_drop] at parts
    simp only [← same, List.length_append]
    omega
  next => simp at h

def substitute (token : List Char) (fill : Slot → List Char) (text : List Char) : List Char :=
  match text with
  | [] => []
  | c :: rest =>
    if c = '[' then
      match _found : readSlot? token rest with
      | some (slot, after) => fill slot ++ substitute token fill after
      | none => c :: substitute token fill rest
    else c :: substitute token fill rest
termination_by text.length
decreasing_by
  · have bound := readSlot?_length _found
    simp only [List.length_cons]
    omega
  · simp
  · simp

def hasSlot (token : List Char) : List Char → Bool
  | [] => false
  | c :: rest => (c = '[' && (readSlot? token rest).isSome) || hasSlot token rest

def localToken : List Char := "local".toList

def environmentToken : List Char := "node_env".toList

def defaultPattern : String := ".env[.node_env][.local]"

def hasLocal (pattern : String) : Bool := hasSlot localToken pattern.toList

def hasEnvironment (pattern : String) : Bool := hasSlot environmentToken pattern.toList

def givenName (environment : Option String) : Option String := environment.filter (· ≠ "")

def compose (pattern : String) (forLocal : Bool) (environment : Option String) : String :=
  let fillLocal (slot : Slot) :=
    if forLocal then slot.lead ++ localToken ++ slot.trail else []
  let fillEnvironment (slot : Slot) :=
    match givenName environment with
    | some name => slot.lead ++ name.toList ++ slot.trail
    | none => []
  String.ofList
    (substitute environmentToken fillEnvironment
      (substitute localToken fillLocal pattern.toList))

def describe (pattern : String) (environment : Option String) : String :=
  match givenName environment with
  | some name =>
    String.ofList (substitute environmentToken
      (fun slot => '[' :: (slot.lead ++ name.toList ++ slot.trail ++ [']'])) pattern.toList)
  | none => pattern

end LayeredEnv.Naming
