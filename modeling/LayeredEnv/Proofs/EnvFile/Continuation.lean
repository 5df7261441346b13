import LayeredEnv.EnvFile.Quote
import LayeredEnv.Proofs.Text.Blank

set_option autoImplicit false

namespace LayeredEnv.EnvFile

open Text (isBlank)

def IsContinued (text : List Char) : Prop := ['\\', '\n'] <:+: text

structure Joined (text : List Char) : Prop where
  head : ∀ c ∈ text.head?, isBlank c = false
  last : ∀ c ∈ text.getLast?, isBlank c = false
  whole : ¬ IsContinued text

variable {text : List Char}

theorem isContinued_cons {c : Char} :
    IsContinued (c :: text) ↔ (c = '\\' ∧ text.head? = some '\n') ∨ IsContinued text :=
  Text.pair_infix_cons

theorem head?_joinContinued {skipping : Bool} {c : Char}
    (first : (joinContinued skipping text).head? = some c) :
    isBlank c = false ∨ skipping = false ∧ text.head? = some c := by
  fun_induction joinContinued skipping text with
  | case1 skipping rest ih =>
    left
    simpa using ih first
  | case2 skipping d rest other skip ih =>
    left
    simpa using ih first
  | case3 skipping d rest other keep ih =>
    cases first
    cases skipping with
    | false => exact .inr ⟨rfl, rfl⟩
    | true => exact .inl (by simpa using keep)
  | case4 => cases first

theorem getLast?_joinContinued {skipping : Bool} (last : ∀ c ∈ text.getLast?, isBlank c = false) :
    (joinContinued skipping text).getLast? = text.getLast? := by
  fun_induction joinContinued skipping text with
  | case1 skipping rest ih =>
    have more : rest ≠ [] := by
      rintro rfl
      exact absurd (last '\n' rfl) (by decide)
    obtain ⟨c, rest, rfl⟩ := List.exists_cons_of_ne_nil more
    exact ih last
  | case2 skipping d rest other skip ih =>
    have more : rest ≠ [] := by
      rintro rfl
      rw [last d rfl, Bool.and_false] at skip
      cases skip
    obtain ⟨c, rest, rfl⟩ := List.exists_cons_of_ne_nil more
    exact ih last
  | case3 skipping d rest other keep ih =>
    cases rest with
    | nil => rfl
    | cons c rest =>
      rw [List.getLast?_cons, ih last, List.getLast?_cons_cons, List.getLast?_cons]
      rfl
  | case4 => rfl

theorem joinContinued_not_continued (skipping : Bool) (text : List Char) :
    ¬ IsContinued (joinContinued skipping text) := by
  fun_induction joinContinued skipping text with
  | case1 skipping rest ih => exact ih
  | case2 skipping c rest other skip ih => exact ih
  | case3 skipping c rest other keep ih =>
    rw [isContinued_cons, not_or]
    refine ⟨?_, ih⟩
    rintro ⟨backslash, feed⟩
    -- The line end would have to stand there before, and then the two would have been taken away.
    obtain ⟨_, before⟩ := (head?_joinContinued feed).resolve_left (by decide)
    obtain ⟨more, same⟩ := List.head?_eq_some_iff.mp before
    exact other more backslash same
  | case4 => simp [IsContinued]

theorem joinContinued_eq_self (whole : ¬ IsContinued text) : joinContinued false text = text := by
  induction text with
  | nil => rfl
  | cons c rest ih =>
    rw [isContinued_cons, not_or] at whole
    rw [joinContinued, if_neg (by simp), ih whole.2]
    rintro more rfl rfl
    exact whole.1 ⟨rfl, rfl⟩

theorem decodeUnquoted_joined (text : List Char) : Joined (decodeUnquoted text) where
  head c first := by
    rcases head?_joinContinued first with shown | ⟨_, before⟩
    · exact shown
    · rw [Text.head?_trim] at before
      simpa using List.find?_some before
  last c final := by
    have shown : ∀ c ∈ (Text.trim text).getLast?, isBlank c = false := by
      intro c last
      rw [Text.trim, Text.trimBy, Text.getLast?_dropTail] at last
      simpa using List.find?_some last
    rw [decodeUnquoted, getLast?_joinContinued shown] at final
    exact shown c final
  whole := joinContinued_not_continued false _

theorem Joined.decodeUnquoted (joined : Joined text) : decodeUnquoted text = text := by
  rw [EnvFile.decodeUnquoted, Text.trim_eq_self joined.head joined.last,
    joinContinued_eq_self joined.whole]

theorem decodeUnquoted_normal (text : List Char) :
    Joined (decodeUnquoted text) ∧
      decodeUnquoted (decodeUnquoted text) = decodeUnquoted text ∧
      (decodeUnquoted text = text ↔ Joined text) := by
  have joined := decodeUnquoted_joined text
  refine ⟨joined, joined.decodeUnquoted, ?_, Joined.decodeUnquoted⟩
  intro same
  rwa [same] at joined

-- A backslash in front of a continued line, two marks side by side, and blanks behind them.
example : decodeUnquoted " a\\\n \\\n\n\\\\\n b\\\n".toList = "a\\b\\".toList := by decide

end LayeredEnv.EnvFile
