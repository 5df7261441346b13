import LayeredEnv.Proofs.EnvFile.Opening

set_option autoImplicit false

namespace LayeredEnv.EnvFile.Quote

open Text (Unbroken)

def escapeLetter? (c : Char) : Option Char :=
  if c = '\\' then some '\\'
  else if c = '"' then some '"'
  else if c = '\n' then some 'n'
  else if c = '\r' then some 'r'
  else if c = '\t' then some 't'
  else none

def escapeChar (c : Char) : List Char :=
  match escapeLetter? c with
  | some letter => ['\\', letter]
  | none => [c]

def escape (text : List Char) : List Char := text.flatMap escapeChar

variable {c letter : Char}

theorem escapeLetter?_cases (written : escapeLetter? c = some letter) :
    (c = '\\' ∧ letter = '\\') ∨ (c = '"' ∧ letter = '"') ∨ (c = '\n' ∧ letter = 'n') ∨
      (c = '\r' ∧ letter = 'r') ∨ (c = '\t' ∧ letter = 't') := by
  unfold escapeLetter? at written
  repeat' split at written
  all_goals cases written
  all_goals simp [*]

theorem ne_of_escapeLetter?_none (plain : escapeLetter? c = none) :
    c ≠ '\\' ∧ c ≠ '"' ∧ c ≠ '\n' ∧ c ≠ '\r' := by
  refine ⟨?_, ?_, ?_, ?_⟩ <;>
  · rintro rfl
    exact absurd plain (by decide)

theorem escape_cons (c : Char) (rest : List Char) :
    escape (c :: rest) = escapeChar c ++ escape rest := rfl

theorem unescape_escapeChar (c : Char) (text : List Char) :
    unescape (escapeChar c ++ text) = c :: unescape text := by
  rw [escapeChar]
  split
  next letter written =>
    have back : escaped? letter = some c := by
      rcases escapeLetter?_cases written with ⟨rfl, rfl⟩ | ⟨rfl, rfl⟩ | ⟨rfl, rfl⟩ | ⟨rfl, rfl⟩ |
        ⟨rfl, rfl⟩ <;> rfl
    simp [unescape, back]
  next plain =>
    have other := (ne_of_escapeLetter?_none plain).1
    cases text <;> simp [unescape, other]

theorem unescape_escape_append (text rest : List Char) :
    unescape (escape text ++ rest) = text ++ unescape rest := by
  induction text with
  | nil => rfl
  | cons c later ih =>
    rw [escape_cons, List.append_assoc, unescape_escapeChar, ih, List.cons_append]

theorem decode_escape (text rest : List Char) :
    double.decode (escape text) = text ∧
      double.decode (escape text ++ rest) = text ++ double.decode rest := by
  have apart (rest : List Char) :
      double.decode (escape text ++ rest) = text ++ double.decode rest :=
    unescape_escape_append text rest
  refine ⟨?_, apart rest⟩
  calc
    double.decode (escape text) = double.decode (escape text ++ []) := by rw [List.append_nil]
    _ = text ++ double.decode [] := apart []
    _ = text := List.append_nil text

-- The second of two backslashes does not escape the letter behind it.
example : double.decode "C:\\\\new\\n".toList = "C:\\new\n".toList := by decide

end LayeredEnv.EnvFile.Quote
