import LayeredEnv.Json.Writer
import LayeredEnv.Proofs.Json.Token
import LayeredEnv.Proofs.Json.Within

set_option autoImplicit false

namespace LayeredEnv.Json

theorem tokens_plain {json : Json} (noItems : json.items? = none) (noFields : json.fields? = none) :
    ∃ token, ∀ rest, tokens rest json = token :: rest := by
  cases json with
  | arr items => cases noItems
  | obj fields => cases noFields
  | _ => exact ⟨_, fun rest => rfl⟩

theorem itemTokens_append {items : List Json}
    (inner : ∀ item ∈ items, ∀ rest, tokens rest item = tokens [] item ++ rest)
    (rest : List Token) :
    itemTokens rest items = items.flatMap (fun item => .comma :: tokens [] item) ++
      .endArray :: rest := by
  induction items with
  | nil => rw [itemTokens]; rfl
  | cons item more ih =>
    have later := ih fun other member => inner other (by simp [member])
    rw [itemTokens, inner item (by simp), later, List.flatMap_cons, List.append_assoc]
    rfl

theorem fieldTokens_append {fields : Fields}
    (inner : ∀ entry ∈ fields, ∀ rest, tokens rest entry.2 = tokens [] entry.2 ++ rest)
    (rest : List Token) :
    fieldTokens rest fields =
      fields.flatMap (fun entry => .comma :: .str entry.1.toList :: .colon :: tokens [] entry.2) ++
        .endObject :: rest := by
  induction fields with
  | nil => rw [fieldTokens]; rfl
  | cons entry more ih =>
    have later := ih fun other member => inner other (by simp [member])
    rw [fieldTokens, inner entry (by simp), later, List.flatMap_cons, List.append_assoc]
    rfl

theorem tokens_append (rest : List Token) (json : Json) :
    tokens rest json = tokens [] json ++ rest := by
  induction json using nested generalizing rest with
  | plain json noItems noFields =>
    obtain ⟨token, same⟩ := tokens_plain noItems noFields
    rw [same, same]
    rfl
  | array items ih =>
    cases items with
    | nil => rfl
    | cons item more =>
      have later := itemTokens_append fun other member => ih other (List.mem_cons_of_mem item member)
      rw [tokens, tokens, ih item (by simp), ih item (by simp) (itemTokens [] more), later,
        later []]
      simp
  | object fields ih =>
    cases fields with
    | nil => rfl
    | cons entry more =>
      have later := fieldTokens_append fun other member =>
        ih other (List.mem_cons_of_mem entry member)
      rw [tokens, tokens, ih entry (by simp), ih entry (by simp) (fieldTokens [] more), later,
        later []]
      simp

theorem itemTokens_eq (items : List Json) (rest : List Token) :
    itemTokens rest items = items.flatMap (fun item => .comma :: tokens [] item) ++
      .endArray :: rest :=
  itemTokens_append (fun item _ rest => tokens_append rest item) rest

theorem fieldTokens_eq (fields : Fields) (rest : List Token) :
    fieldTokens rest fields =
      fields.flatMap (fun entry => .comma :: .str entry.1.toList :: .colon :: tokens [] entry.2) ++
        .endObject :: rest :=
  fieldTokens_append (fun entry _ rest => tokens_append rest entry.2) rest

theorem tokens_arr_cons (item : Json) (more : List Json) :
    tokens [] (.arr (item :: more)) = .beginArray ::
      (tokens [] item ++ (more.flatMap (fun item => .comma :: tokens [] item) ++ [.endArray])) := by
  rw [tokens, tokens_append, itemTokens_eq]

theorem tokens_obj_cons (key : String) (value : Json) (more : Fields) :
    tokens [] (.obj ((key, value) :: more)) = .beginObject :: .str key.toList :: .colon ::
      (tokens [] value ++
        (more.flatMap
            (fun entry => .comma :: .str entry.1.toList :: .colon :: tokens [] entry.2) ++
          [.endObject])) := by
  rw [tokens, tokens_append, fieldTokens_eq]

theorem tokens_arr (items : List Json) :
    ∃ inner, tokens [] (.arr items) = .beginArray :: (inner ++ [.endArray]) := by
  cases items with
  | nil => exact ⟨[], rfl⟩
  | cons item more => exact ⟨_, by rw [tokens_arr_cons, ← List.append_assoc]⟩

theorem tokens_obj (fields : Fields) :
    ∃ inner, tokens [] (.obj fields) = .beginObject :: (inner ++ [.endObject]) := by
  cases fields with
  | nil => exact ⟨[], rfl⟩
  | cons entry more =>
    rw [tokens_obj_cons, ← List.append_assoc, ← List.cons_append, ← List.cons_append]
    exact ⟨_, rfl⟩

theorem tokens_item_subset {item : Json} {items : List Json} (member : item ∈ items) :
    tokens [] item ⊆ tokens [] (.arr items) := by
  intro token inside
  cases items with
  | nil => cases member
  | cons first more =>
    rw [tokens_arr_cons]
    rcases List.mem_cons.mp member with rfl | later
    · simp [inside]
    · have among : token ∈ more.flatMap fun item => .comma :: tokens [] item :=
        List.mem_flatMap.mpr ⟨item, later, List.mem_cons_of_mem _ inside⟩
      simp [among]

theorem tokens_entry_subset {entry : String × Json} {fields : Fields} (member : entry ∈ fields) :
    .str entry.1.toList :: tokens [] entry.2 ⊆ tokens [] (.obj fields) := by
  intro token inside
  cases fields with
  | nil => cases member
  | cons first more =>
    rw [tokens_obj_cons]
    rcases List.mem_cons.mp member with rfl | later
    · rcases List.mem_cons.mp inside with rfl | value <;> simp [*]
    · have among : token ∈ more.flatMap fun entry =>
          .comma :: .str entry.1.toList :: .colon :: tokens [] entry.2 := by
        refine List.mem_flatMap.mpr ⟨entry, later, ?_⟩
        rcases List.mem_cons.mp inside with rfl | value <;> simp [*]
      simp [among]

theorem mem_tokens_arr {token : Token} {items : List Json}
    (member : token ∈ tokens [] (.arr items)) :
    token ∈ [.beginArray, .comma, .endArray] ∨ ∃ item ∈ items, token ∈ tokens [] item := by
  cases items with
  | nil =>
    simp only [tokens, List.mem_cons, List.not_mem_nil, or_false] at member
    rcases member with rfl | rfl <;> simp
  | cons first more =>
    rw [tokens_arr_cons] at member
    simp only [List.mem_cons, List.mem_append, List.mem_flatMap] at member ⊢
    grind

theorem mem_tokens_obj {token : Token} {fields : Fields}
    (member : token ∈ tokens [] (.obj fields)) :
    token ∈ [.beginObject, .colon, .comma, .endObject] ∨
      ∃ entry ∈ fields, token ∈ .str entry.1.toList :: tokens [] entry.2 := by
  cases fields with
  | nil =>
    simp only [tokens, List.mem_cons, List.not_mem_nil, or_false] at member
    rcases member with rfl | rfl <;> simp
  | cons first more =>
    rw [tokens_obj_cons] at member
    simp only [List.mem_cons, List.mem_append, List.mem_flatMap] at member ⊢
    grind

theorem Within.tokens_subset {part json : Json} (within : Within part json) :
    tokens [] part ⊆ tokens [] json := by
  induction within with
  | self => exact List.Subset.refl _
  | item _ member ih => exact List.Subset.trans ih (tokens_item_subset member)
  | field _ member ih =>
    exact List.Subset.trans ih (List.subset_of_cons_subset (tokens_entry_subset member))

theorem Names.mem_tokens {text : String} {json : Json} (names : Names text json) :
    .str text.toList ∈ tokens [] json := by
  rcases names with string | ⟨fields, key, within⟩
  · exact string.tokens_subset (by simp [tokens])
  · obtain ⟨entry, member, rfl⟩ := List.mem_map.mp key
    exact within.tokens_subset (tokens_entry_subset member (by simp))

def Token.Stands (json : Json) : Token → Prop
  | .num value => Within (.num value) json
  | .str text => Names (String.ofList text) json
  | _ => True

theorem Token.Stands.within {token : Token} {part json : Json} (stands : token.Stands part)
    (within : Within part json) : token.Stands json := by
  cases token with
  | num value => exact Within.trans stands within
  | str text => exact Names.within stands within
  | _ => trivial

theorem stands_of_mem_tokens {token : Token} {json : Json} (member : token ∈ tokens [] json) :
    token.Stands json := by
  induction json using nested with
  | plain json noItems noFields =>
    cases json with
    | arr items => cases noItems
    | obj fields => cases noFields
    | num value =>
      cases List.mem_singleton.mp member
      exact .self _
    | str text =>
      cases List.mem_singleton.mp member
      exact .inl (by rw [String.ofList_toList]; exact .self _)
    | _ =>
      cases List.mem_singleton.mp member
      trivial
  | array items ih =>
    rcases mem_tokens_arr member with mark | ⟨item, held, inside⟩
    · simp only [List.mem_cons, List.not_mem_nil, or_false] at mark
      rcases mark with rfl | rfl | rfl <;> trivial
    · exact (ih item held inside).within (.item (.self item) held)
  | object fields ih =>
    rcases mem_tokens_obj member with mark | ⟨entry, held, inside⟩
    · simp only [List.mem_cons, List.not_mem_nil, or_false] at mark
      rcases mark with rfl | rfl | rfl | rfl <;> trivial
    · rcases List.mem_cons.mp inside with rfl | value
      · refine .inr ⟨fields, ?_, .self _⟩
        rw [String.ofList_toList]
        exact List.mem_map_of_mem held
      · exact (ih entry held value).within (.field (.self entry.2) held)

open Token (Spaced isDelimiter)

theorem itemTokens_delimited (items : List Json) :
    ∀ token ∈ (itemTokens [] items).head?, token.isDelimiter = true := by
  cases items <;> simp [itemTokens, isDelimiter]

theorem fieldTokens_delimited (fields : Fields) :
    ∀ token ∈ (fieldTokens [] fields).head?, token.isDelimiter = true := by
  cases fields <;> simp [fieldTokens, isDelimiter]

theorem itemTokens_spaced {items : List Json}
    (inner : ∀ item ∈ items, Spaced (tokens [] item)) : Spaced (itemTokens [] items) := by
  induction items with
  | nil => exact .singleton _
  | cons item more ih =>
    have later := ih fun other member => inner other (List.mem_cons_of_mem item member)
    rw [itemTokens, tokens_append]
    exact Spaced.cons rfl (Spaced.append (inner item (by simp)) later (itemTokens_delimited more))

theorem fieldTokens_spaced {fields : Fields}
    (inner : ∀ entry ∈ fields, Spaced (tokens [] entry.2)) : Spaced (fieldTokens [] fields) := by
  induction fields with
  | nil => exact .singleton _
  | cons entry more ih =>
    have later := ih fun other member => inner other (List.mem_cons_of_mem entry member)
    rw [fieldTokens, tokens_append]
    refine Spaced.cons rfl (Spaced.cons rfl (Spaced.cons rfl ?_))
    exact Spaced.append (inner entry (by simp)) later (fieldTokens_delimited more)

theorem tokens_spaced (json : Json) : Spaced (tokens [] json) := by
  induction json using nested with
  | plain json noItems noFields =>
    obtain ⟨token, same⟩ := tokens_plain noItems noFields
    rw [same]
    exact .singleton token
  | array items ih =>
    cases items with
    | nil => exact Spaced.cons rfl (.singleton _)
    | cons item more =>
      have later := itemTokens_spaced fun other member => ih other (List.mem_cons_of_mem item member)
      rw [tokens, tokens_append]
      exact Spaced.cons rfl (Spaced.append (ih item (by simp)) later (itemTokens_delimited more))
  | object fields ih =>
    cases fields with
    | nil => exact Spaced.cons rfl (.singleton _)
    | cons entry more =>
      have later := fieldTokens_spaced fun other member =>
        ih other (List.mem_cons_of_mem entry member)
      rw [tokens, tokens_append]
      refine Spaced.cons rfl (Spaced.cons rfl (Spaced.cons rfl ?_))
      exact Spaced.append (ih entry (by simp)) later (fieldTokens_delimited more)

end LayeredEnv.Json
