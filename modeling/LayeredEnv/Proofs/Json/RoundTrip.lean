import LayeredEnv.Proofs.Json.Reading
import LayeredEnv.Proofs.Json.Writing

set_option autoImplicit false

namespace LayeredEnv.Json

namespace Progress

variable {room : Nat} {frames : List Frame}

theorem foldlM_cons (progress : Progress) (token : Token) (rest : List Token) :
    (token :: rest).foldlM step progress =
      (progress.step token).bind fun next => rest.foldlM step next := by
  rw [List.foldlM_cons]
  rfl

def Replayed (room : Nat) (json : Json) : Prop :=
  ∀ (frames : List Frame) (rest : List Token), frames.length + room ≤ depthLimit →
    (tokens rest json).foldlM step ⟨frames, .value⟩ =
      (place json frames).bind fun next => rest.foldlM step next

theorem items_replayed {items : List Json} (inner : ∀ item ∈ items, Replayed room item)
    (reversed : List Json) (rest : List Token) (fits : frames.length + (room + 1) ≤ depthLimit) :
    (itemTokens rest items).foldlM step ⟨.items reversed :: frames, .separator⟩ =
      (place (.arr (reversed.reverse ++ items)) frames).bind fun next => rest.foldlM step next := by
  induction items generalizing reversed with
  | nil =>
    rw [itemTokens, foldlM_cons, List.append_nil]
    rfl
  | cons item more ih =>
    -- The item is read with the rest of the array as the tokens behind it.
    have first := inner item (by simp) (.items reversed :: frames) (itemTokens rest more)
      (by simp only [List.length_cons]; omega)
    have later := ih (fun other member => inner other (List.mem_cons_of_mem item member))
      (item :: reversed)
    rw [List.reverse_cons, List.append_assoc] at later
    calc (itemTokens rest (item :: more)).foldlM step ⟨.items reversed :: frames, .separator⟩
        = (tokens (itemTokens rest more) item).foldlM step ⟨.items reversed :: frames, .value⟩ := by
          rw [itemTokens, foldlM_cons]
          rfl
      _ = (itemTokens rest more).foldlM step ⟨.items (item :: reversed) :: frames, .separator⟩ := by
          rw [first]
          rfl
      _ = _ := later

theorem fields_replayed {fields : Fields} (inner : ∀ entry ∈ fields, Replayed room entry.2)
    (done : Fields) (distinct : (done ++ fields).keys.Nodup) (rest : List Token)
    (fits : frames.length + (room + 1) ≤ depthLimit) :
    (fieldTokens rest fields).foldlM step ⟨.fields done :: frames, .separator⟩ =
      (place (.obj (done ++ fields)) frames).bind fun next => rest.foldlM step next := by
  induction fields generalizing done with
  | nil =>
    rw [fieldTokens, foldlM_cons, List.append_nil]
    rfl
  | cons entry more ih =>
    obtain ⟨key, value⟩ := entry
    -- A new key is set behind the fields that are done.
    have absent : key ∉ done.keys := by
      intro member
      rw [Fields.keys, List.map_append] at distinct
      exact (List.nodup_append.mp distinct).2.2 _ member _ (by simp) rfl
    have first := inner (key, value) (by simp) (.field done key :: frames) (fieldTokens rest more)
      (by simp only [List.length_cons]; omega)
    rw [List.append_cons] at distinct ⊢
    have later := ih (fun other member => inner other (List.mem_cons_of_mem _ member)) _ distinct
    calc (fieldTokens rest ((key, value) :: more)).foldlM step ⟨.fields done :: frames, .separator⟩
        = (tokens (fieldTokens rest more) value).foldlM step ⟨.field done key :: frames, .value⟩ := by
          simp only [fieldTokens, foldlM_cons, step, Option.bind_some, String.ofList_toList]
      _ = (fieldTokens rest more).foldlM step
            ⟨.fields (done ++ [(key, value)]) :: frames, .separator⟩ := by
          rw [first, ← Fields.set_of_not_mem absent]
          rfl
      _ = _ := later

theorem step_itemOrClose {token : Token} (more : token ≠ .endArray) :
    step ⟨frames, .itemOrClose⟩ token = step ⟨frames, .value⟩ token := by
  simp only [step]
  split
  case h_3 => rfl
  all_goals simp_all

theorem tokens_head (rest : List Token) (json : Json) :
    ∃ token more, tokens rest json = token :: more ∧ token ≠ .endArray := by
  cases json with
  | arr items => cases items <;> exact ⟨_, _, rfl, by simp⟩
  | obj fields => cases fields <;> exact ⟨_, _, rfl, by simp⟩
  | _ => exact ⟨_, _, rfl, by simp⟩

theorem foldlM_itemOrClose (rest : List Token) (json : Json) :
    (tokens rest json).foldlM step ⟨frames, .itemOrClose⟩ =
      (tokens rest json).foldlM step ⟨frames, .value⟩ := by
  obtain ⟨token, more, same, differ⟩ := tokens_head rest json
  rw [same, foldlM_cons, foldlM_cons, step_itemOrClose differ]

theorem readable_replayed {json : Json} (readable : Readable room json) : Replayed room json := by
  induction readable with
  | arr room items inner ih =>
    intro frames rest fits
    have opened : frames.length < depthLimit := by omega
    cases items with
    | nil =>
      simp only [tokens, foldlM_cons, step, stepValue, enter, opened, if_true, Option.bind_some]
    | cons item more =>
      have first := ih item (by simp) (.items [] :: frames) (itemTokens rest more)
        (by simp only [List.length_cons]; omega)
      have later := items_replayed (fun other member => ih other (List.mem_cons_of_mem item member))
        [item] rest fits
      simp only [tokens, foldlM_cons, step, stepValue, enter, opened, if_true, Option.bind_some]
      -- The first item stands where the array might have been closed instead.
      rw [foldlM_itemOrClose, first]
      exact later
  | obj room fields distinct inner ih =>
    intro frames rest fits
    have opened : frames.length < depthLimit := by omega
    cases fields with
    | nil =>
      simp only [tokens, foldlM_cons, step, stepValue, enter, opened, if_true, Option.bind_some]
    | cons entry more =>
      obtain ⟨key, value⟩ := entry
      have first := ih (key, value) (by simp) (.field [] key :: frames) (fieldTokens rest more)
        (by simp only [List.length_cons]; omega)
      have later := fields_replayed (fun other member => ih other (List.mem_cons_of_mem _ member))
        [(key, value)] distinct rest fits
      simp only [tokens, foldlM_cons, step, stepValue, enter, opened, if_true, Option.bind_some,
        String.ofList_toList]
      rw [first]
      exact later
  | _ =>
    intro frames rest fits
    simp only [tokens, foldlM_cons, step, stepValue, String.ofList_toList]

end Progress

theorem Readable.within {room : Nat} {part json : Json} (readable : Readable room json)
    (within : Within part json) : ∃ inner, Readable inner part := by
  induction within generalizing room with
  | self => exact ⟨room, readable⟩
  | item _ member ih =>
    cases readable with
    | arr room _ inner => exact ih (inner _ member)
  | field _ member ih =>
    cases readable with
    | obj room _ _ inner => exact ih (inner _ member)

theorem Readable.exact {room : Nat} {json : Json} (readable : Readable room json)
    (floatFree : json.FloatFree) : ∀ token ∈ tokens [] json, token.Exact := by
  intro token member
  have stands := stands_of_mem_tokens member
  cases token with
  | num value =>
    obtain ⟨inner, found⟩ := readable.within stands
    cases value with
    | int n =>
      cases found with
      | num _ _ word => exact word
    | float value => exact floatFree value stands
  | _ => trivial

theorem read?_write {json : Json} (readable : Readable Progress.depthLimit json)
    (floatFree : json.FloatFree) : read? json.write = some json := by
  have read : lex? json.write.toList = some (tokens [] json) := by
    rw [write, String.toList_ofList]
    exact Token.lex?_flatMap (readable.exact floatFree) (tokens_spaced json)
  have run := Progress.readable_replayed readable [] [] (by simp)
  simp only [read?, read, Option.bind_eq_bind, Option.bind_some, Progress.start, run]
  rfl

end LayeredEnv.Json
