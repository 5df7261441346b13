import LayeredEnv.Naming.Pattern
import Mathlib.Data.List.Basic

set_option autoImplicit false

namespace LayeredEnv.Naming

inductive SlotKind
  | forLocal
  | forEnvironment
deriving DecidableEq, Repr

def SlotKind.token : SlotKind → List Char
  | .forLocal => "local".toList
  | .forEnvironment => "node_env".toList

structure Bare (text : List Char) : Prop where
  opening : '[' ∉ text
  closing : ']' ∉ text

/-- A slot whose text around the token has neither word characters nor brackets. -/
structure Frame extends Slot where
  lead_gap : ∀ c ∈ lead, isGap c = true
  lead_bare : Bare lead
  trail_gap : ∀ c ∈ trail, isGap c = true
  trail_bare : Bare trail

inductive Segment
  | literal (text : List Char) (bare : Bare text)
  | slot (kind : SlotKind) (frame : Frame)

def Segment.written : Segment → List Char
  | .literal text _ => text
  | .slot kind frame => '[' :: (frame.lead ++ kind.token ++ frame.trail ++ [']'])

def Segment.filled (forLocal : Bool) (environment : Option String) : Segment → List Char
  | .literal text _ => text
  | .slot .forLocal frame => if forLocal then frame.lead ++ "local".toList ++ frame.trail else []
  | .slot .forEnvironment frame =>
    match environment with
    | none => []
    | some name => if name = "" then [] else frame.lead ++ name.toList ++ frame.trail

def written (segments : List Segment) : List Char := segments.flatMap Segment.written

theorem splitLast?_append {mark : Char} {after : List Char} (absent : mark ∉ after)
    (before : List Char) : splitLast? mark (before ++ mark :: after) = some (before, after) := by
  have last : splitLast? mark after = none := by
    induction after with
    | nil => rfl
    | cons c rest ih =>
      simp only [List.mem_cons, not_or] at absent
      simp [splitLast?, ih absent.2, Ne.symm absent.1]
  induction before with
  | nil => simp [splitLast?, last]
  | cons c rest ih => simp [splitLast?, ih]

/-- A slot that ends where the text begins does not go on into it. -/
def Sealed (text : List Char) : Prop := ']' ∉ text.takeWhile isGap

theorem token_head (kind : SlotKind) : ∃ c rest, kind.token = c :: rest ∧ isGap c = false := by
  cases kind with
  | forLocal => exact ⟨'l', "ocal".toList, rfl, by decide⟩
  | forEnvironment => exact ⟨'n', "ode_env".toList, rfl, by decide⟩

theorem dropWhile_token {lead : List Char} (gap : ∀ c ∈ lead, isGap c = true) (kind : SlotKind)
    (rest : List Char) :
    (lead ++ (kind.token ++ rest)).dropWhile isGap = kind.token ++ rest := by
  obtain ⟨c, tail, same, word⟩ := token_head kind
  rw [List.dropWhile_append_of_pos gap, same, List.cons_append,
    List.dropWhile_cons_of_neg (by simp [word])]

theorem takeWhile_token {lead : List Char} (gap : ∀ c ∈ lead, isGap c = true) (kind : SlotKind)
    (rest : List Char) : (lead ++ (kind.token ++ rest)).takeWhile isGap = lead := by
  obtain ⟨c, tail, same, word⟩ := token_head kind
  rw [List.takeWhile_append_of_pos gap, same, List.cons_append,
    List.takeWhile_cons_of_neg (by simp [word]), List.append_nil]

theorem readSlot?_frame (kind : SlotKind) (frame : Frame) {rest : List Char}
    (ends : Sealed rest) :
    readSlot? kind.token (frame.lead ++ (kind.token ++ (frame.trail ++ ']' :: rest))) =
      some (frame.toSlot, rest) := by
  have closing : isGap ']' = true := by decide
  have reach : (frame.trail ++ ']' :: rest).takeWhile isGap =
      frame.trail ++ ']' :: rest.takeWhile isGap := by
    rw [List.takeWhile_append_of_pos frame.trail_gap, List.takeWhile_cons_of_pos closing]
  have left : (frame.trail ++ ']' :: rest).dropWhile isGap = rest.dropWhile isGap := by
    rw [List.dropWhile_append_of_pos frame.trail_gap, List.dropWhile_cons_of_pos closing]
  -- The run behind the token may go on into the rest, but the last closing bracket is this slot's.
  simp only [readSlot?, dropWhile_token frame.lead_gap, takeWhile_token frame.lead_gap,
    List.drop_left, reach, left, splitLast?_append ends]
  simp

theorem readSlot?_other {kind other : SlotKind} (differ : other ≠ kind) {lead : List Char}
    (gap : ∀ c ∈ lead, isGap c = true) (rest : List Char) :
    readSlot? kind.token (lead ++ (other.token ++ rest)) = none := by
  have apart : kind.token.isPrefixOf (other.token ++ rest) = false := by
    cases kind with
    | forLocal =>
      cases other with
      | forLocal => exact absurd rfl differ
      | forEnvironment => rfl
    | forEnvironment =>
      cases other with
      | forLocal => rfl
      | forEnvironment => exact absurd rfl differ
  simp [readSlot?, dropWhile_token gap, apart]

theorem Sealed.append {text rest : List Char} (closing : ']' ∉ text) (ends : Sealed rest) :
    Sealed (text ++ rest) := by
  induction text with
  | nil => exact ends
  | cons c more ih =>
    simp only [List.mem_cons, not_or] at closing
    rw [Sealed, List.cons_append, List.takeWhile_cons]
    split
    next =>
      rw [List.mem_cons, not_or]
      exact ⟨closing.1, ih closing.2⟩
    next => exact List.not_mem_nil

theorem written_slot (kind : SlotKind) (frame : Frame) (rest : List Segment) :
    written (.slot kind frame :: rest) =
      '[' :: (frame.lead ++ (kind.token ++ (frame.trail ++ ']' :: written rest))) := by
  simp [written, Segment.written]

theorem written_literal {text : List Char} (bare : Bare text) (rest : List Segment) :
    written (.literal text bare :: rest) = text ++ written rest := by
  simp [written, Segment.written]

theorem sealed_written (segments : List Segment) : Sealed (written segments) := by
  induction segments with
  | nil => exact List.not_mem_nil
  | cons segment rest ih =>
    cases segment with
    | literal text bare =>
      rw [written_literal]
      exact ih.append bare.closing
    | slot kind frame =>
      have opening : isGap '[' = true := by decide
      rw [written_slot, Sealed, List.takeWhile_cons_of_pos opening,
        takeWhile_token frame.lead_gap]
      simpa using frame.lead_bare.closing

theorem token_bare (kind : SlotKind) : Bare kind.token := by
  cases kind with
  | forLocal => exact ⟨by decide, by decide⟩
  | forEnvironment => exact ⟨by decide, by decide⟩

theorem Frame.inside_bare (frame : Frame) (kind : SlotKind) :
    Bare (frame.lead ++ kind.token ++ frame.trail) := by
  have lead := frame.lead_bare
  have token := token_bare kind
  have trail := frame.trail_bare
  constructor
  next => simp [lead.opening, token.opening, trail.opening]
  next => simp [lead.closing, token.closing, trail.closing]

theorem Frame.opening_not_mem (frame : Frame) (kind : SlotKind) :
    '[' ∉ frame.lead ++ kind.token ++ frame.trail ++ [']'] := by
  simpa using (frame.inside_bare kind).opening

section

variable {token text rest after : List Char} {fill : Slot → List Char} {slot : Slot}

theorem substitute_read (found : readSlot? token rest = some (slot, after)) :
    substitute token fill ('[' :: rest) = fill slot ++ substitute token fill after := by
  rw [substitute, if_pos rfl]
  split
  next same =>
    rw [found] at same
    cases same
    rfl
  next none =>
    rw [found] at none
    cases none

theorem substitute_unread (none : readSlot? token rest = none) :
    substitute token fill ('[' :: rest) = '[' :: substitute token fill rest := by
  rw [substitute, if_pos rfl]
  split
  next same =>
    rw [none] at same
    cases same
  next => rfl

theorem substitute_append (bare : '[' ∉ text) (token rest : List Char) (fill : Slot → List Char) :
    substitute token fill (text ++ rest) = text ++ substitute token fill rest := by
  induction text with
  | nil => rfl
  | cons c more ih =>
    rw [List.mem_cons, not_or] at bare
    rw [List.cons_append, substitute, if_neg (Ne.symm bare.1), ih bare.2, List.cons_append]

theorem hasSlot_append (bare : '[' ∉ text) (token rest : List Char) :
    hasSlot token (text ++ rest) = hasSlot token rest := by
  induction text with
  | nil => rfl
  | cons c more ih =>
    rw [List.mem_cons, not_or] at bare
    simp [hasSlot, Ne.symm bare.1, ih bare.2]

end

def Segment.replaced (kind : SlotKind) (fill : Slot → List Char) : Segment → List Char
  | .literal text _ => text
  | .slot other frame =>
    if other = kind then fill frame.toSlot else (Segment.slot other frame).written

theorem substitute_written (kind : SlotKind) (fill : Slot → List Char) (segments : List Segment) :
    substitute kind.token fill (written segments) =
      segments.flatMap (Segment.replaced kind fill) := by
  induction segments with
  | nil => simp [written, substitute]
  | cons segment rest ih =>
    rw [List.flatMap_cons, ← ih]
    cases segment with
    | literal text bare =>
      rw [written_literal, substitute_append bare.opening, Segment.replaced]
    | slot other frame =>
      rw [written_slot, Segment.replaced]
      by_cases same : other = kind
      next =>
        subst same
        rw [if_pos rfl, substitute_read (readSlot?_frame other frame (sealed_written rest))]
      next =>
        -- A slot of the other kind is passed over, bracket by bracket.
        rw [if_neg same, substitute_unread (readSlot?_other same frame.lead_gap _)]
        have skipped :=
          substitute_append (frame.opening_not_mem other) kind.token (written rest) fill
        simpa [Segment.written] using skipped

theorem hasSlot_written (kind : SlotKind) (segments : List Segment) :
    hasSlot kind.token (written segments) = true ↔ ∃ frame, Segment.slot kind frame ∈ segments := by
  induction segments with
  | nil => simp [written, hasSlot]
  | cons segment rest ih =>
    cases segment with
    | literal text bare => simp [written_literal, hasSlot_append bare.opening, ih]
    | slot other frame =>
      rw [written_slot]
      by_cases same : other = kind
      next =>
        subst same
        simp only [hasSlot, readSlot?_frame other frame (sealed_written rest)]
        exact ⟨fun _ => ⟨frame, by simp⟩, fun _ => rfl⟩
      next =>
        have skipped := hasSlot_append (frame.opening_not_mem other) kind.token (written rest)
        have unread := readSlot?_other same frame.lead_gap (frame.trail ++ ']' :: written rest)
        simp only [List.append_assoc, List.singleton_append] at skipped
        simp [hasSlot, unread, skipped, ih, Ne.symm same]

theorem bare_nil : Bare [] := ⟨List.not_mem_nil, List.not_mem_nil⟩

def Segment.settled (forLocal : Bool) : Segment → Segment
  | .literal text bare => .literal text bare
  | .slot .forLocal frame =>
    if forLocal then
      .literal (frame.lead ++ localToken ++ frame.trail) (frame.inside_bare .forLocal)
    else .literal [] bare_nil
  | .slot .forEnvironment frame => .slot .forEnvironment frame

theorem substitute_forLocal (forLocal : Bool) (segments : List Segment) :
    substitute localToken
      (fun slot => if forLocal then slot.lead ++ localToken ++ slot.trail else [])
      (written segments) = written (segments.map (Segment.settled forLocal)) := by
  refine (substitute_written .forLocal _ segments).trans ?_
  rw [written, List.flatMap_map]
  refine List.flatMap_congr fun segment _ => ?_
  cases segment with
  | literal text bare => rfl
  | slot kind frame => cases kind <;> cases forLocal <;> rfl

theorem substitute_forEnvironment (forLocal : Bool) (environment : Option String)
    (segments : List Segment) :
    substitute environmentToken
      (fun slot => match givenName environment with
        | some name => slot.lead ++ name.toList ++ slot.trail
        | none => [])
      (written (segments.map (Segment.settled forLocal))) =
        segments.flatMap (Segment.filled forLocal environment) := by
  refine (substitute_written .forEnvironment _ _).trans ?_
  rw [List.flatMap_map]
  refine List.flatMap_congr fun segment _ => ?_
  cases segment with
  | literal text bare => rfl
  | slot kind frame =>
    cases kind with
    | forLocal => cases forLocal <;> rfl
    | forEnvironment =>
      cases environment with
      | none => rfl
      | some name =>
        by_cases empty : name = "" <;>
          simp [Segment.settled, Segment.replaced, Segment.filled, givenName, Option.filter, empty]

theorem compose_written (segments : List Segment) (forLocal : Bool) (environment : Option String) :
    compose (String.ofList (written segments)) forLocal environment =
      String.ofList (segments.flatMap (Segment.filled forLocal environment)) ∧
    (hasLocal (String.ofList (written segments)) = true ↔
      ∃ frame, Segment.slot .forLocal frame ∈ segments) ∧
    (hasEnvironment (String.ofList (written segments)) = true ↔
      ∃ frame, Segment.slot .forEnvironment frame ∈ segments) := by
  refine ⟨?_, ?_, ?_⟩
  · -- What the first pass leaves is again put together from segments, so the second reads on it.
    simp only [compose, String.toList_ofList, substitute_forLocal]
    exact congrArg String.ofList (substitute_forEnvironment forLocal environment segments)
  · rw [hasLocal, String.toList_ofList]
    exact hasSlot_written .forLocal segments
  · rw [hasEnvironment, String.toList_ofList]
    exact hasSlot_written .forEnvironment segments

def dotFrame : Frame where
  lead := ['.']
  trail := []
  lead_gap := List.forall_mem_singleton.mpr (by decide)
  lead_bare := ⟨by decide, by decide⟩
  trail_gap := fun _ member => absurd member List.not_mem_nil
  trail_bare := bare_nil

example : String.ofList (written [.literal ".env".toList ⟨by decide, by decide⟩,
    .slot .forEnvironment dotFrame, .slot .forLocal dotFrame]) = defaultPattern := by decide

end LayeredEnv.Naming
