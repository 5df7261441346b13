import LayeredEnv.Text.Line

set_option autoImplicit false

namespace LayeredEnv.Text

def Unbroken (text : List Char) : Prop := '\r' ∉ text ∧ '\n' ∉ text

instance (text : List Char) : Decidable (Unbroken text) := inferInstanceAs (Decidable (_ ∧ _))

theorem Unbroken.append {first second : List Char} (left : Unbroken first)
    (right : Unbroken second) : Unbroken (first ++ second) := by
  simp [Unbroken, left.1, left.2, right.1, right.2]

theorem unbroken_cons {c : Char} {rest : List Char} :
    Unbroken (c :: rest) ↔ (c ≠ '\r' ∧ c ≠ '\n') ∧ Unbroken rest := by
  simp only [Unbroken, List.mem_cons, not_or, ne_eq, eq_comm (a := c)]
  exact and_and_and_comm

@[simp] theorem lines_nil : lines [] = [[]] := rfl

theorem lines_feed (rest : List Char) : lines ('\n' :: rest) = [] :: lines rest := by
  simp [lines]

theorem lines_return {rest : List Char} (apart : rest.head? ≠ some '\n') :
    lines ('\r' :: rest) = [] :: lines rest := by
  rw [lines]
  · simp
  · rintro after _ rfl
    exact apart rfl

theorem lines_cons {c : Char} {rest line : List Char} {more : List (List Char)}
    (apart : c ≠ '\r' ∧ c ≠ '\n') (later : lines rest = line :: more) :
    lines (c :: rest) = (c :: line) :: more := by
  rw [lines.eq_def]
  split <;> simp_all

theorem lines_ne_nil (text : List Char) : lines text ≠ [] := by
  fun_induction lines text <;> simp

theorem lines_prepend {start text line : List Char} {more : List (List Char)}
    (unbroken : Unbroken start) (later : lines text = line :: more) :
    lines (start ++ text) = (start ++ line) :: more := by
  induction start with
  | nil => exact later
  | cons c rest ih =>
    obtain ⟨apart, unbroken⟩ := unbroken_cons.mp unbroken
    exact lines_cons apart (ih unbroken)

def IsLineEnd (text : List Char) : Prop := text = ['\n'] ∨ text = ['\r', '\n'] ∨ text = ['\r']

instance (text : List Char) : Decidable (IsLineEnd text) := inferInstanceAs (Decidable (_ ∨ _))

-- A carriage return would end one line together with a line feed behind it.
theorem lines_end {lineEnd rest : List Char} (ends : IsLineEnd lineEnd)
    (apart : lineEnd = ['\r'] → rest.head? ≠ some '\n') :
    lines (lineEnd ++ rest) = [] :: lines rest := by
  rcases ends with rfl | rfl | rfl
  · exact lines_feed rest
  · rw [List.cons_append, List.cons_append, List.nil_append, lines]
  · exact lines_return (apart rfl)

theorem lines_ended {line lineEnd rest : List Char} (unbroken : Unbroken line)
    (ends : IsLineEnd lineEnd) (apart : rest.head? ≠ some '\n') :
    lines (line ++ (lineEnd ++ rest)) = line :: lines rest := by
  simpa using lines_prepend unbroken (lines_end ends fun _ => apart)

-- A line starts with no line feed, and a carriage return stands before the next one.
theorem head?_intercalate_return {parts : List (List Char)}
    (unbroken : ∀ part ∈ parts, Unbroken part) :
    (['\r'].intercalate parts).head? ≠ some '\n' := by
  cases parts with
  | nil => simp
  | cons part rest =>
    have here := unbroken part (by simp)
    cases part with
    | nil => cases rest <;> simp [List.intercalate]
    | cons c text =>
      have apart := (unbroken_cons.mp here).1.2
      cases rest <;> simp [apart]

theorem lines_intercalate {lineEnd : List Char} {parts : List (List Char)}
    (ends : IsLineEnd lineEnd) (some : parts ≠ []) (unbroken : ∀ part ∈ parts, Unbroken part) :
    lines (lineEnd.intercalate parts) = parts := by
  induction parts with
  | nil => exact absurd rfl some
  | cons part rest ih =>
    obtain ⟨here, later⟩ := List.forall_mem_cons.mp unbroken
    cases rest with
    | nil => simpa using lines_prepend here lines_nil
    | cons next more =>
      have apart : lineEnd = ['\r'] → (lineEnd.intercalate (next :: more)).head? ≠ .some '\n' := by
        rintro rfl
        exact head?_intercalate_return later
      have ended := lines_end ends apart
      rw [ih (by simp) later] at ended
      rw [List.intercalate_cons_cons, List.append_assoc, lines_prepend here ended, List.append_nil]

/-- How the lines of two texts with a line feed between them follow each other. A carriage return at
the end of the first text ends its line together with the line feed, so that the blank line which
the first text has behind it alone is no line of both. -/
def Seam (first second whole : List (List Char)) : Prop :=
  whole = first ++ second ∨
    ∃ before, before ≠ [] ∧ first = before ++ [[]] ∧ whole = before ++ second

theorem Seam.cons {first second whole : List (List Char)} (seam : Seam first second whole)
    (line : List Char) : Seam (line :: first) second (line :: whole) := by
  rcases seam with rfl | ⟨before, _, rfl, rfl⟩
  · exact .inl rfl
  · exact .inr ⟨line :: before, by simp, rfl, rfl⟩

theorem Seam.head {line : List Char} {more second whole : List (List Char)}
    (seam : Seam (line :: more) second whole) :
    ∃ tail, whole = line :: tail ∧ ∀ other, Seam (other :: more) second (other :: tail) := by
  rcases seam with rfl | ⟨before, some, same, rfl⟩
  · exact ⟨more ++ second, rfl, fun _ => .inl rfl⟩
  · obtain ⟨_, later, rfl⟩ := List.exists_cons_of_ne_nil some
    rw [List.cons_append, List.cons.injEq] at same
    obtain ⟨rfl, rfl⟩ := same
    exact ⟨later ++ second, rfl, fun other => .inr ⟨other :: later, by simp, rfl, rfl⟩⟩

theorem lines_seam (first second : List Char) :
    Seam (lines first) (lines second) (lines (first ++ '\n' :: second)) := by
  fun_induction lines first with
  | case1 => exact .inl (lines_feed second)
  | case2 rest ih =>
    rw [List.cons_append, List.cons_append, lines]
    exact ih.cons []
  | case3 c rest unpaired ends ih =>
    simp only [Bool.or_eq_true, decide_eq_true_eq] at ends
    rcases ends with rfl | rfl
    · cases rest with
      | nil => exact .inr ⟨[[]], by simp, rfl, by simp [lines]⟩
      | cons next more =>
        -- The first text goes on behind the carriage return, and not with a line feed.
        have apart : ((next :: more) ++ '\n' :: second).head? ≠ some '\n' := by
          intro same
          cases same
          exact unpaired more rfl rfl
        rw [List.cons_append, lines_return apart]
        exact ih.cons []
    · rw [List.cons_append, lines_feed]
      exact ih.cons []
  | case4 c rest _ _ none => exact absurd none (lines_ne_nil rest)
  | case5 c rest _ inside line more later ih =>
    simp only [Bool.or_eq_true, decide_eq_true_eq, not_or] at inside
    rw [later] at ih
    obtain ⟨tail, whole, seam⟩ := ih.head
    rw [List.cons_append, lines_cons inside whole]
    exact seam (c :: line)

end LayeredEnv.Text
