import LayeredEnv.Proofs.Value.Mention

set_option autoImplicit false

namespace LayeredEnv.Value

def separators : List String := [":-", "-"]

def defaulted (name separator fallback : String) : String :=
  "$\x7b" ++ name ++ separator ++ fallback ++ "\x7d"

def fallbackPart (fallback : String) : String := if fallback = "" then "" else ":-" ++ fallback

/-- References nested as fallbacks, the first name outermost: `${A:-${B:-last}}`. The innermost one
has a fallback if the last text is not empty. -/
def fallbackChain : List String → String → String
  | [], last => last
  | name :: more, last => "$\x7b" ++ name ++ fallbackPart (fallbackChain more last) ++ "\x7d"

def Flat (text : String) : Prop := '$' ∉ text.toList ∧ '\x7d' ∉ text.toList

def EndsBare (text : String) : Prop :=
  Ends text.toList ∧ ∀ separator ∈ separators, ¬ separator.toList <+: text.toList

instance (text : String) : Decidable (Flat text) := inferInstanceAs (Decidable (_ ∧ _))

instance (text : String) : Decidable (EndsBare text) := inferInstanceAs (Decidable (_ ∧ _))

variable {name separator : String}

theorem separator_cases (separates : separator ∈ separators) :
    separator = ":-" ∨ separator = "-" := by
  simpa [separators] using separates

theorem ends_separator (separates : separator ∈ separators) (body : List Char) :
    Ends (separator.toList ++ body) := by
  rcases separator_cases separates with rfl | rfl
  all_goals
    intro c head
    cases head
    decide

theorem not_mem_name (named : IsName name) {c : Char} (outside : isNameChar c = false) :
    c ∉ name.toList := by
  intro member
  rw [named.2 c member] at outside
  cases outside

theorem dropWhile_name (named : IsName name) {behind : List Char} (ends : Ends behind) :
    (name.toList ++ behind).dropWhile isNameChar = behind := by
  rw [List.dropWhile_append_of_pos named.2]
  cases behind with
  | nil => rfl
  | cons c rest => exact List.dropWhile_cons_of_neg (by simp [ends c rfl])

namespace Reference

variable {fallback rest : List Char}

theorem read?_name (named : IsName name) {opening behind : List Char}
    (opens : opening = [] ∨ opening = ['\x7b']) (ends : Ends behind) :
    read? (opening ++ (name.toList ++ behind)) =
      some (⟨name, (readFallback behind).1⟩, dropClosing (readFallback behind).2) := by
  have body : dropOpening (opening ++ (name.toList ++ behind)) = name.toList ++ behind := by
    rcases opens with rfl | rfl
    · exact dropOpening_name named behind
    · rfl
  have filled : name.toList.isEmpty = false := by simp [named.1]
  simp [read?, body, takeWhile_name named ends, dropWhile_name named ends, filled]

theorem readFallback_separator (separates : separator ∈ separators) (body : List Char) :
    readFallback (separator.toList ++ body) =
      if (takeFallback body).1 = [] then ([], separator.toList ++ body) else takeFallback body := by
  rcases separator_cases separates with rfl | rfl <;> simp [readFallback]

theorem read?_bare (named : IsName name) {after : String} (ends : EndsBare after) :
    read? (name.toList ++ after.toList) = some (⟨name, []⟩, dropClosing after.toList) := by
  have none : readFallback after.toList = ([], after.toList) := by
    have dash := ends.2 "-" (by decide)
    have colon := ends.2 ":-" (by decide)
    unfold readFallback
    split
    next same => simp [same] at colon
    next same => simp [same] at dash
    next => rfl
  have read := read?_name named (.inl rfl) ends.1
  rwa [none] at read

theorem read?_defaulted (named : IsName name) (separates : separator ∈ separators)
    (filled : fallback ≠ [])
    (closed : takeFallback (fallback ++ '\x7d' :: rest) = (fallback, '\x7d' :: rest)) :
    read? ('\x7b' :: (name.toList ++ (separator.toList ++ (fallback ++ '\x7d' :: rest)))) =
      some (⟨name, fallback⟩, rest) := by
  have read := read?_name named (.inr rfl) (ends_separator separates (fallback ++ '\x7d' :: rest))
  rwa [readFallback_separator separates, closed, if_neg filled] at read

-- A separator with nothing behind it is not read, and neither is the brace behind the separator.
theorem read?_undefaulted (named : IsName name) (separates : separator ∈ separators)
    (rest : List Char) :
    read? ('\x7b' :: (name.toList ++ (separator.toList ++ '\x7d' :: rest))) =
      some (⟨name, []⟩, separator.toList ++ '\x7d' :: rest) := by
  have none : (takeFallback ('\x7d' :: rest)).1 = [] := by simp [takeFallback, splitFallback]
  have kept : dropClosing (separator.toList ++ '\x7d' :: rest) =
      separator.toList ++ '\x7d' :: rest := by
    rcases separator_cases separates with rfl | rfl <;> rfl
  have read := read?_name named (.inr rfl) (ends_separator separates ('\x7d' :: rest))
  rwa [readFallback_separator separates, if_pos none, kept] at read

/-- The text goes into a fallback whole, and closes as many braces as are counted. -/
def Taken (closings depth closed : Nat) (text : List Char) : Prop :=
  ∀ rest, splitFallback closings depth (text ++ rest) =
    (splitFallback (closings - closed) depth rest).map (text ++ ·) id

variable {closings depth closed : Nat} {text : List Char}

theorem taken_nil (closings depth : Nat) : Taken closings depth 0 [] := fun _ => rfl

theorem Taken.append {more : Nat} {after : List Char} (first : Taken closings depth closed text)
    (second : Taken (closings - closed) depth more after) :
    Taken closings depth (closed + more) (text ++ after) := by
  intro rest
  rw [List.append_assoc, first, second, Nat.sub_add_eq]
  simp [Prod.map]

theorem taken_char (closings depth : Nat) {c : Char} (dollar : c ≠ '$') (brace : c ≠ '\x7d') :
    Taken closings depth 0 [c] := by
  intro rest
  cases depth <;> simp [splitFallback, dollar, brace, Prod.map]

theorem taken_plain (closings depth : Nat) (dollar : '$' ∉ text) (brace : '\x7d' ∉ text) :
    Taken closings depth 0 text := by
  induction text with
  | nil => exact taken_nil closings depth
  | cons c text ih =>
    simp only [List.mem_cons, not_or] at dollar brace
    have here := taken_char closings depth (Ne.symm dollar.1) (Ne.symm brace.1)
    exact here.append (ih dollar.2 brace.2)

theorem Taken.nest (inside : Taken closings (depth + 1) closed text) (shallow : depth < nesting)
    (left : depth < closings) :
    Taken closings depth (closed + 1) ('$' :: '\x7b' :: (text ++ ['\x7d'])) := by
  intro rest
  have opened (body : List Char) : splitFallback closings depth ('$' :: '\x7b' :: body) =
      (splitFallback closings (depth + 1) body).map ('$' :: '\x7b' :: ·) id := by
    simp [splitFallback, shallow, left, Prod.map]
  have closing : splitFallback (closings - closed) (depth + 1) ('\x7d' :: rest) =
      (splitFallback (closings - closed - 1) depth rest).map ('\x7d' :: ·) id := by
    simp [splitFallback, Prod.map]
  simp only [List.cons_append, List.append_assoc, List.nil_append]
  rw [opened, inside, closing, Nat.sub_add_eq]
  simp [Prod.map]

theorem taken_fallbackChain {names : List String} {last : String}
    (named : ∀ name ∈ names, IsName name) (flat : Flat last)
    (shallow : depth + names.length ≤ nesting) (left : depth + names.length ≤ closings) :
    Taken closings depth names.length (fallbackChain names last).toList := by
  -- Each name goes one level deeper, and its brace is closed behind all of the inner ones.
  induction names generalizing depth with
  | nil => exact taken_plain closings depth flat.1 flat.2
  | cons name more ih =>
    simp only [List.length_cons] at shallow left ⊢
    have here := named name List.mem_cons_self
    have own := taken_plain closings (depth + 1)
      (not_mem_name here (by decide : isNameChar '$' = false))
      (not_mem_name here (by decide : isNameChar '\x7d' = false))
    have inner := ih (fun other member => named other (List.mem_cons_of_mem _ member))
      (by omega : depth + 1 + more.length ≤ nesting) (by omega)
    have part : Taken closings (depth + 1) more.length
        (fallbackPart (fallbackChain more last)).toList := by
      rw [fallbackPart]
      split
      next empty => simpa [empty] using inner
      next =>
        have separator := taken_plain closings (depth + 1) (by decide : '$' ∉ ":-".toList)
          (by decide)
        simpa using separator.append inner
    have nested := (own.append part).nest (by omega) (by omega)
    simpa [fallbackChain] using nested

theorem length_le_count_fallbackChain (names : List String) (last : String) :
    names.length ≤ (fallbackChain names last).toList.count '\x7d' := by
  induction names with
  | nil => exact Nat.zero_le _
  | cons name more ih =>
    have part : (fallbackChain more last).toList.count '\x7d' ≤
        (fallbackPart (fallbackChain more last)).toList.count '\x7d' := by
      rw [fallbackPart]
      split
      next empty => simp [empty]
      next => simp
    have closing : "\x7d".toList.count '\x7d' = 1 := by decide
    simp only [fallbackChain, String.toList_append, List.count_append, List.length_cons]
    omega

theorem takeFallback_fallbackChain {names : List String} {last : String}
    (named : ∀ name ∈ names, IsName name) (flat : Flat last) (shallow : names.length ≤ nesting)
    (rest : List Char) :
    takeFallback ((fallbackChain names last).toList ++ '\x7d' :: rest) =
      ((fallbackChain names last).toList, '\x7d' :: rest) := by
  have enough : 0 + names.length ≤
      ((fallbackChain names last).toList ++ '\x7d' :: rest).count '\x7d' := by
    have own := length_le_count_fallbackChain names last
    rw [List.count_append]
    omega
  have taken := taken_fallbackChain named flat (by omega : 0 + names.length ≤ nesting) enough
  have stop (closings : Nat) :
      splitFallback closings 0 ('\x7d' :: rest) = ([], '\x7d' :: rest) := by
    simp [splitFallback]
  rw [takeFallback, taken, stop]
  simp

-- A flat text is a chain of no names.
theorem takeFallback_flat {text : String} (flat : Flat text) (rest : List Char) :
    takeFallback (text.toList ++ '\x7d' :: rest) = (text.toList, '\x7d' :: rest) :=
  @takeFallback_fallbackChain [] text (by simp) flat (Nat.zero_le _) rest

end Reference
end LayeredEnv.Value
