import LayeredEnv.EnvFile.Document
import LayeredEnv.Proofs.Text.Blank
import LayeredEnv.Proofs.Text.Lines

set_option autoImplicit false

namespace LayeredEnv.EnvFile

open Text (Unbroken isBlank dropTail)

theorem isAlpha_iff {c : Char} : c.isAlpha = true ↔ ('A' ≤ c ∧ c ≤ 'Z') ∨ ('a' ≤ c ∧ c ≤ 'z') := by
  have ranges : c.isAlpha = (decide (c.val ≥ 'A'.val ∧ c.val ≤ 'Z'.val) ||
      (decide (c.val ≥ 'a'.val) && decide (c.val ≤ 'z'.val))) := rfl
  simp [ranges, Char.le_def]

theorem isDigit_iff {c : Char} : c.isDigit = true ↔ '0' ≤ c ∧ c ≤ '9' := by
  simp [Char.isDigit, Char.le_def]

theorem not_blank_of_isKeyChar {c : Char} (valid : isKeyChar c = true) : isBlank c = false := by
  have range : (48 ≤ c.toNat ∧ c.toNat ≤ 57) ∨ (65 ≤ c.toNat ∧ c.toNat ≤ 90) ∨ c.toNat = 95 ∨
      (97 ≤ c.toNat ∧ c.toNat ≤ 122) := by
    simp only [isKeyChar, Char.isAlphanum, Bool.or_eq_true, decide_eq_true_eq, isAlpha_iff,
      isDigit_iff, Char.le_def, UInt32.le_iff_toNat_le] at valid
    rcases valid with ((upper | lower) | digit) | rfl
    · exact .inr (.inl upper)
    · exact .inr (.inr (.inr lower))
    · exact .inl digit
    · exact .inr (.inr (.inl rfl))
  simp only [isBlank, Bool.or_eq_false_iff, Bool.and_eq_false_iff, decide_eq_false_iff_not,
    beq_eq_false_iff_ne]
  omega

theorem not_isKeyChar_of_blank {c : Char} (blank : isBlank c = true) : isKeyChar c = false := by
  cases valid : isKeyChar c with
  | false => rfl
  | true =>
    rw [not_blank_of_isKeyChar valid] at blank
    cases blank

theorem isKeyChar_of_isKey {key : List Char} (valid : isKey key = true) :
    ∀ c ∈ key, isKeyChar c = true := by
  cases key with
  | nil => cases valid
  | cons first rest =>
    simp only [isKey, Bool.and_eq_true, List.all_eq_true] at valid
    intro c member
    rcases List.mem_cons.mp member with rfl | later
    · have start := valid.1
      simp only [isKeyStart, Bool.or_eq_true] at start
      simp only [isKeyChar, Char.isAlphanum, Bool.or_eq_true]
      exact start.imp_left .inl
    · exact valid.2 c later

theorem not_mem_of_isKey {key : List Char} (valid : isKey key = true) {c : Char}
    (other : isKeyChar c = false) : c ∉ key := by
  intro member
  rw [isKeyChar_of_isKey valid c member] at other
  cases other

theorem unbroken_of_isKey {key : List Char} (valid : isKey key = true) : Unbroken key :=
  ⟨not_mem_of_isKey valid (by decide), not_mem_of_isKey valid (by decide)⟩

variable {key gap : List Char}

theorem span_isKeyChar (valid : isKey key = true) {c : Char} (other : isKeyChar c = false)
    (text : List Char) :
    (key ++ c :: text).takeWhile isKeyChar = key ∧
      (key ++ c :: text).dropWhile isKeyChar = c :: text := by
  have inside := isKeyChar_of_isKey valid
  constructor
  · rw [List.takeWhile_append_of_pos inside, List.takeWhile_cons_of_neg (by simp [other]),
      List.append_nil]
  · rw [List.dropWhile_append_of_pos inside, List.dropWhile_cons_of_neg (by simp [other])]

-- The equals sign or a blank before it ends the key.
theorem sign_ends_key (blank : ∀ c ∈ gap, isBlank c = true) (text : List Char) :
    ∃ c rest, gap ++ '=' :: text = c :: rest ∧ isKeyChar c = false ∧
      (c :: rest).dropWhile isBlank = '=' :: text := by
  have dropped : (gap ++ '=' :: text).dropWhile isBlank = '=' :: text := by
    rw [List.dropWhile_append_of_pos blank, List.dropWhile_cons_of_neg (by decide)]
  cases gap with
  | nil => exact ⟨'=', text, rfl, by decide, dropped⟩
  | cons c rest => exact ⟨c, _, rfl, not_isKeyChar_of_blank (blank c (by simp)), dropped⟩

theorem readAssignment?_spaced (valid : isKey key = true) (blank : ∀ c ∈ gap, isBlank c = true)
    (text : List Char) :
    readAssignment? (key ++ (gap ++ '=' :: text)) = some (key, text.dropWhile isBlank) := by
  obtain ⟨c, rest, behind, other, sign⟩ := sign_ends_key blank text
  obtain ⟨taken, left⟩ := span_isKeyChar valid other rest
  simp [readAssignment?, behind, taken, left, sign, valid]

theorem dropExport?_eq_some_iff {line rest : List Char} :
    dropExport? line = some rest ↔ ∃ c after, line = exportWord ++ c :: after ∧
      isBlank c = true ∧ rest = (c :: after).dropWhile isBlank := by
  rw [dropExport?]
  constructor
  · intro dropped
    split at dropped
    next starts =>
      obtain ⟨behind, rfl⟩ := List.isPrefixOf_iff_prefix.mp starts
      rw [List.drop_left] at dropped
      split at dropped
      next c after =>
        split at dropped
        next blank =>
          cases dropped
          exact ⟨c, after, rfl, blank, (List.dropWhile_cons_of_pos blank).symm⟩
        next => cases dropped
      next => cases dropped
    next => cases dropped
  · rintro ⟨c, after, rfl, blank, rfl⟩
    rw [if_pos (List.isPrefixOf_iff_prefix.mpr (List.prefix_append _ _)), List.drop_left]
    simp [blank]

theorem isKey_exportWord : isKey exportWord = true := by decide +kernel

theorem readHead?_spaced (valid : isKey key = true) (blank : ∀ c ∈ gap, isBlank c = true)
    (text : List Char) :
    readHead? (key ++ (gap ++ '=' :: text)) = some (key, text.dropWhile isBlank) := by
  have unexported : (dropExport? (key ++ (gap ++ '=' :: text))).bind readAssignment? = none := by
    rw [Option.bind_eq_none_iff]
    intro rest dropped
    -- Only a key that is the word itself can be dropped, and then no key stands behind it.
    obtain ⟨c, after, word, spaced, rfl⟩ := dropExport?_eq_some_iff.mp dropped
    obtain ⟨d, behind, same, other, sign⟩ := sign_ends_key blank text
    rw [same] at word
    have left := congrArg (List.dropWhile isKeyChar) word
    rw [(span_isKeyChar valid other behind).2,
      (span_isKeyChar isKey_exportWord (not_isKeyChar_of_blank spaced) after).2] at left
    rw [← left, sign]
    rfl
  rw [readHead?, unexported, readAssignment?_spaced valid blank]
  rfl

theorem readHead?_exported (valid : isKey key = true) {apart : List Char} (filled : apart ≠ [])
    (spaces : ∀ c ∈ apart, isBlank c = true) (blank : ∀ c ∈ gap, isBlank c = true)
    (text : List Char) :
    readHead? (exportWord ++ (apart ++ (key ++ (gap ++ '=' :: text)))) =
      some (key, text.dropWhile isBlank) := by
  have behind : (apart ++ (key ++ (gap ++ '=' :: text))).dropWhile isBlank =
      key ++ (gap ++ '=' :: text) := by
    rw [List.dropWhile_append_of_pos spaces]
    cases key with
    | nil => cases valid
    | cons first _ =>
      have shown := not_blank_of_isKeyChar (isKeyChar_of_isKey valid first (by simp))
      simp [shown]
  have dropped : dropExport? (exportWord ++ (apart ++ (key ++ (gap ++ '=' :: text)))) =
      some (key ++ (gap ++ '=' :: text)) := by
    obtain ⟨c, more, rfl⟩ := List.exists_cons_of_ne_nil filled
    exact dropExport?_eq_some_iff.mpr ⟨c, _, rfl, spaces c (by simp), behind.symm⟩
  rw [readHead?, dropped, Option.bind_some, readAssignment?_spaced valid blank]
  rfl

namespace Quote

variable {quote : Quote}

theorem splitFrom?_of_not_mem {text : List Char} (absent : quote.mark ∉ text) (shielded : Bool) :
    quote.splitFrom? shielded text = none := by
  induction text generalizing shielded with
  | nil => rfl
  | cons c rest ih =>
    simp only [List.mem_cons, not_or] at absent
    simp [splitFrom?, Ne.symm absent.1, ih absent.2]

def shieldsAfter (shielded : Bool) (text : List Char) : Bool :=
  match text.getLast? with
  | some c => c = '\\'
  | none => shielded

theorem splitFrom?_append {before : List Char} {shielded : Bool}
    (opened : quote.splitFrom? shielded before = none) (text : List Char) :
    quote.splitFrom? shielded (before ++ text) =
      (quote.splitFrom? (shieldsAfter shielded before) text).map
        fun (inner, after) => (before ++ inner, after) := by
  induction before generalizing shielded with
  | nil => simp [shieldsAfter]
  | cons c rest ih =>
    rw [splitFrom?] at opened
    split at opened
    next => cases opened
    next goes =>
      -- Only the character directly before a quote can shield it.
      have later := ih (Option.map_eq_none_iff.mp opened)
      have shields : shieldsAfter (c = '\\') rest = shieldsAfter shielded (c :: rest) := by
        cases last : rest.getLast? <;> simp [shieldsAfter, List.getLast?_cons, last]
      rw [List.cons_append, splitFrom?, if_neg goes, later, Option.map_map, shields]
      rfl

theorem splitClosing?_mark {before : List Char} (opened : quote.splitClosing? before = none)
    (plain : before.getLast? ≠ some '\\') (after : List Char) :
    quote.splitClosing? (before ++ quote.mark :: after) = some (before, after) := by
  have free : shieldsAfter false before = false := by
    cases last : before.getLast? with
    | none => simp [shieldsAfter, last]
    | some c =>
      rw [last, ne_eq, Option.some.injEq] at plain
      simp [shieldsAfter, last, plain]
  rw [splitClosing?, splitFrom?_append opened, free, splitFrom?]
  simp

end Quote

namespace Scan

theorem isBlankOrComment_key (valid : isKey key = true) (text : List Char) :
    isBlankOrComment (key ++ text) = false := by
  cases key with
  | nil => cases valid
  | cons c rest =>
    have start := isKeyChar_of_isKey valid c (by simp)
    have plain : c ≠ '#' := by
      rintro rfl
      exact absurd start (by decide)
    simp [isBlankOrComment, Text.trim_cons (not_blank_of_isKeyChar start), plain]

theorem run_intercalate {lineEnd : List Char} {lines : List (List Char)}
    (ends : Text.IsLineEnd lineEnd) (unbroken : ∀ line ∈ lines, Unbroken line) :
    run (lineEnd.intercalate lines) = lines.foldl step start := by
  cases lines with
  | nil => rfl
  | cons first rest => rw [run, Text.lines_intercalate ends (by simp) unbroken]

end Scan
end LayeredEnv.EnvFile
