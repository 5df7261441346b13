import LayeredEnv.Proofs.Value.Alias

set_option autoImplicit false

namespace LayeredEnv.Value

def Ends (text : List Char) : Prop := ∀ c ∈ text.head?, isNameChar c = false

instance (text : List Char) : Decidable (Ends text) :=
  decidable_of_iff (text.head?.all (!isNameChar ·) = true) (by simp [Ends, Option.all_eq_true])

def Mentions (text : List Char) (name : String) : Prop :=
  IsName name ∧ ∃ before opening behind, text = before ++ '$' :: opening ++ name.toList ++ behind ∧
    (opening = [] ∨ opening = ['\x7b']) ∧ Ends behind

theorem ends_nil : Ends [] := fun _ member => by cases member

theorem Ends.append {text after : List Char} (ends : Ends text) (stops : Ends after) :
    Ends (text ++ after) := by
  cases text with
  | nil => exact stops
  | cons c rest => exact ends

theorem Mentions.within {text after : List Char} {name : String} (mentions : Mentions text name)
    (before : List Char) (stops : Ends after) : Mentions (before ++ text ++ after) name := by
  obtain ⟨named, lead, opening, behind, rfl, opens, ends⟩ := mentions
  exact ⟨named, before ++ lead, opening, behind ++ after, by simp, opens, ends.append stops⟩

def mentioned : List Char → List String
  | [] => []
  | c :: rest =>
    let name := (Reference.dropOpening rest).takeWhile isNameChar
    if c = '$' ∧ name ≠ [] then String.ofList name :: mentioned rest else mentioned rest

theorem ends_dropWhile (text : List Char) : Ends (text.dropWhile isNameChar) := by
  intro c member
  have head := List.head?_dropWhile_not isNameChar text
  rw [Option.mem_def.mp member] at head
  simpa using head

theorem takeWhile_name {name : String} (named : IsName name) {behind : List Char}
    (ends : Ends behind) : (name.toList ++ behind).takeWhile isNameChar = name.toList := by
  rw [List.takeWhile_append_of_pos named.2]
  cases behind with
  | nil => simp
  | cons c rest => rw [List.takeWhile_cons_of_neg (by simp [ends c rfl]), List.append_nil]

theorem dropOpening_name {name : String} (named : IsName name) (behind : List Char) :
    Reference.dropOpening (name.toList ++ behind) = name.toList ++ behind := by
  cases text : name.toList with
  | nil => exact absurd (String.toList_eq_nil_iff.mp text) named.1
  | cons c rest =>
    have first : isNameChar c = true := named.2 c (by simp [text])
    unfold Reference.dropOpening
    split
    next same =>
      cases same
      exact absurd first (by decide)
    next => rfl

theorem mem_mentioned {text : List Char} {name : String} (mentions : Mentions text name) :
    name ∈ mentioned text := by
  obtain ⟨named, before, opening, behind, rfl, opens, ends⟩ := mentions
  induction before with
  | nil =>
    have body : Reference.dropOpening (opening ++ (name.toList ++ behind)) =
        name.toList ++ behind := by
      rcases opens with rfl | rfl
      · exact dropOpening_name named behind
      · rfl
    have filled : name.toList ≠ [] := fun empty => named.1 (String.toList_eq_nil_iff.mp empty)
    simp [mentioned, body, takeWhile_name named ends, filled]
  | cons c rest ih =>
    simp only [List.cons_append, mentioned]
    split
    next => exact List.mem_cons_of_mem _ ih
    next => exact ih

namespace Reference

theorem splitFallback_append (closings depth : Nat) (text : List Char) :
    (splitFallback closings depth text).1 ++ (splitFallback closings depth text).2 = text := by
  fun_induction splitFallback closings depth text <;> simp_all

-- A fallback ends before a closing brace or with the text, so it cuts no name short.
theorem splitFallback_ends (closings depth : Nat) (text : List Char) :
    Ends (splitFallback closings depth text).2 := by
  fun_induction splitFallback closings depth text with
  | case1 => exact ends_nil
  | case3 =>
    intro c member
    cases member
    decide
  | _ => simp_all

theorem takeFallback_append (text : List Char) :
    (takeFallback text).1 ++ (takeFallback text).2 = text :=
  splitFallback_append _ 0 text

theorem takeFallback_ends (text : List Char) : Ends (takeFallback text).2 :=
  splitFallback_ends _ 0 text

theorem readFallback_parts (text : List Char) :
    ∃ separator, text = separator ++ (readFallback text).1 ++ (readFallback text).2 ∧
      ((readFallback text).1 ≠ [] → Ends (readFallback text).2) := by
  unfold readFallback
  split
  next body =>
    by_cases empty : (takeFallback body).1 = []
    next => exact ⟨[], by simp [empty]⟩
    next => exact ⟨[':', '-'], by simp [empty, takeFallback_append, takeFallback_ends]⟩
  next body =>
    by_cases empty : (takeFallback body).1 = []
    next => exact ⟨[], by simp [empty]⟩
    next => exact ⟨['-'], by simp [empty, takeFallback_append, takeFallback_ends]⟩
  next => exact ⟨[], by simp⟩

theorem dropOpening_eq (text : List Char) :
    ∃ opening, text = opening ++ dropOpening text ∧ (opening = [] ∨ opening = ['\x7b']) := by
  unfold dropOpening
  split
  next => exact ⟨['\x7b'], by simp⟩
  next => exact ⟨[], by simp⟩

theorem dropClosing_eq (text : List Char) : ∃ closing, text = closing ++ dropClosing text := by
  unfold dropClosing
  split
  next => exact ⟨['\x7d'], by simp⟩
  next => exact ⟨[], by simp⟩

theorem read?_parts {text rest : List Char} {target : Reference}
    (read : read? text = some (target, rest)) :
    ∃ opening separator after closing,
      text = opening ++ target.name.toList ++ (separator ++ target.fallback ++ after) ∧
      after = closing ++ rest ∧ (opening = [] ∨ opening = ['\x7b']) ∧ IsName target.name ∧
      Ends (separator ++ target.fallback ++ after) ∧ (target.fallback ≠ [] → Ends after) := by
  unfold read? at read
  simp only at read
  split at read
  next => cases read
  next filled =>
    cases read
    -- In the order of the text: an opening brace, the name, a fallback and a closing brace.
    obtain ⟨opening, opened, opens⟩ := dropOpening_eq text
    obtain ⟨separator, divided, stops⟩ :=
      readFallback_parts ((dropOpening text).dropWhile isNameChar)
    obtain ⟨closing, closed⟩ :=
      dropClosing_eq (readFallback ((dropOpening text).dropWhile isNameChar)).2
    have named : IsName (String.ofList ((dropOpening text).takeWhile isNameChar)) := by
      refine ⟨?_, fun c member => ?_⟩
      · simpa [String.ofList_eq_empty_iff] using filled
      · rw [String.toList_ofList] at member
        exact List.all_eq_true.mp List.all_takeWhile c member
    have ends := ends_dropWhile (dropOpening text)
    rw [divided] at ends
    refine ⟨opening, separator, _, closing, ?_, closed, opens, named, ends, stops⟩
    rw [← divided, String.toList_ofList, List.append_assoc, List.takeWhile_append_dropWhile]
    exact opened

end Reference

theorem Reference.read?_suffix {text rest : List Char} {target : Reference}
    (read : Reference.read? text = some (target, rest)) : rest <:+ text := by
  obtain ⟨opening, separator, after, closing, rfl, rfl, _⟩ := Reference.read?_parts read
  exact ⟨opening ++ target.name.toList ++ (separator ++ target.fallback) ++ closing, by simp⟩

theorem Piece.next?_reference {text rest : List Char} {target : Reference}
    (first : Piece.next? text = some (.reference target, rest)) :
    ∃ body, text = '$' :: body ∧ Reference.read? body = some (target, rest) := by
  unfold Piece.next? at first
  split at first
  next => cases first
  next => split at first <;> simp at first
  next c body _ =>
    split at first
    next dollar =>
      split at first
      next read =>
        cases first
        exact ⟨body, by rw [dollar], read⟩
      next => simp at first
    next => simp at first

theorem Piece.next?_dollar {body rest : List Char} {target : Reference}
    (read : Reference.read? body = some (target, rest)) :
    next? ('$' :: body) = some (.reference target, rest) := by
  rw [next?.eq_def]
  simp [read]

theorem Piece.next?_suffix {text rest : List Char} {piece : Piece}
    (first : Piece.next? text = some (piece, rest)) : rest <:+ text := by
  unfold Piece.next? at first
  split at first
  next => cases first
  next body =>
    split at first
    next read =>
      cases first
      exact (Reference.read?_suffix read).trans ⟨['\\', '$'], rfl⟩
    next =>
      cases first
      exact List.suffix_cons _ _
  next c body _ =>
    split at first
    next =>
      split at first
      next read =>
        cases first
        exact (Reference.read?_suffix read).trans (List.suffix_cons _ _)
      next =>
        cases first
        exact List.suffix_cons _ _
    next =>
      cases first
      exact List.suffix_cons _ _

variable {text rest : List Char} {name : String} {target : Reference}

theorem Mentions.of_rest {piece : Piece} (mentions : Mentions rest name)
    (first : Piece.next? text = some (piece, rest)) : Mentions text name := by
  obtain ⟨before, rfl⟩ := Piece.next?_suffix first
  simpa using mentions.within before ends_nil

theorem mentions_target (first : Piece.next? text = some (.reference target, rest)) :
    Mentions text target.name := by
  obtain ⟨body, rfl, read⟩ := Piece.next?_reference first
  obtain ⟨opening, separator, after, closing, rfl, _, opens, named, ends, _⟩ :=
    Reference.read?_parts read
  exact ⟨named, [], opening, _, by simp, opens, ends⟩

theorem Mentions.of_fallback (mentions : Mentions target.fallback name)
    (first : Piece.next? text = some (.reference target, rest)) : Mentions text name := by
  obtain ⟨body, rfl, read⟩ := Piece.next?_reference first
  obtain ⟨opening, separator, after, closing, rfl, _, _, _, _, stops⟩ :=
    Reference.read?_parts read
  -- An empty fallback mentions nothing, and any other ends where no name goes on.
  have filled : target.fallback ≠ [] := by
    intro empty
    have none := mem_mentioned (empty ▸ mentions)
    exact absurd none List.not_mem_nil
  have inside := mentions.within ('$' :: (opening ++ target.name.toList ++ separator))
    (stops filled)
  simpa using inside

end LayeredEnv.Value
