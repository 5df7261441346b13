import LayeredEnv.Proofs.EnvFile.Continuation
import LayeredEnv.Proofs.EnvFile.Opening
import LayeredEnv.Proofs.EnvFile.Scan

set_option autoImplicit false

namespace LayeredEnv.EnvFile

open Text (Unbroken IsLineEnd isBlank)

def Gap (text : List Char) : Prop := (∀ c ∈ text, isBlank c = true) ∧ Unbroken text

instance (text : List Char) : Decidable (Gap text) :=
  decidable_of_iff (text.all isBlank = true ∧ Unbroken text) (by rw [Gap, List.all_eq_true])

structure Bare (value : List Char) : Prop where
  unbroken : Unbroken value
  head : ∀ c ∈ value.head?, isBlank c = false ∧ Quote.ofChar? c = none
  last : ∀ c ∈ value.getLast?, isBlank c = false ∧ c ≠ '\\'

instance (value : List Char) : Decidable (Bare value) :=
  decidable_of_iff (Unbroken value ∧
      (value.head?.all fun c => isBlank c = false ∧ Quote.ofChar? c = none) = true ∧
      (value.getLast?.all fun c => isBlank c = false ∧ c ≠ '\\') = true)
    (by
      simp only [Option.all_eq_true, decide_eq_true_eq]
      exact ⟨fun parts => ⟨parts.1, parts.2.1, parts.2.2⟩,
        fun bare => ⟨bare.unbroken, bare.head, bare.last⟩⟩)

/-- An entry without quotes, the blanks that it is written with, and how its line ends. The blanks of
`exported` stand behind the word `export`, if the word is there. -/
structure BareEntry where
  key : String
  value : String
  exported : Option (List Char)
  beforeSign : List Char
  behindSign : List Char
  behindValue : List Char
  lineEnd : List Char
  valid : isKey key.toList = true
  bare : Bare value.toList
  apart : ∀ blanks ∈ exported, blanks ≠ [] ∧ Gap blanks
  gaps : Gap beforeSign ∧ Gap behindSign ∧ Gap behindValue
  ends : IsLineEnd lineEnd

def BareEntry.line (entry : BareEntry) : List Char :=
  entry.exported.elim [] (exportWord ++ ·) ++ (entry.key.toList ++ (entry.beforeSign ++
    '=' :: (entry.behindSign ++ (entry.value.toList ++ entry.behindValue))))

def bareText (ended : Bool) : List BareEntry → List Char
  | [] => []
  | [entry] => entry.line ++ if ended then entry.lineEnd else []
  | entry :: next :: more => entry.line ++ (entry.lineEnd ++ bareText ended (next :: more))

variable {value gap : List Char}

theorem Bare.dropWhile_of_ne_nil (bare : Bare value) (some : value ≠ []) (behind : List Char) :
    (value ++ behind).dropWhile isBlank = value ++ behind := by
  obtain ⟨c, rest, rfl⟩ := List.exists_cons_of_ne_nil some
  exact List.dropWhile_cons_of_neg (by simp [(bare.head c rfl).1])

theorem Bare.trim (bare : Bare value) (blank : ∀ c ∈ gap, isBlank c = true) :
    Text.trim ((value ++ gap).dropWhile isBlank) = value := by
  by_cases empty : value = []
  next =>
    rw [empty, List.nil_append, List.dropWhile_eq_nil_iff.mpr blank]
    rfl
  next =>
    rw [bare.dropWhile_of_ne_nil empty, Text.trim, Text.trimBy, bare.dropWhile_of_ne_nil empty,
      Text.dropTail_append blank, Text.dropTail_eq_self_iff]
    exact fun c last => (bare.last c last).1

theorem Bare.uncontinued (bare : Bare value) (blank : ∀ c ∈ gap, isBlank c = true) :
    Text.dropLast? '\\' ((value ++ gap).dropWhile isBlank) = none := by
  by_cases empty : value = []
  next =>
    rw [empty, List.nil_append, List.dropWhile_eq_nil_iff.mpr blank]
    rfl
  next =>
    have plain : (value ++ gap).getLast? ≠ some '\\' := by
      rw [List.getLast?_append, ne_eq, Option.or_eq_some_iff]
      rintro (last | ⟨_, last⟩)
      · exact absurd (blank _ (List.mem_of_getLast? last)) (by decide)
      · exact (bare.last _ last).2 rfl
    rw [bare.dropWhile_of_ne_nil empty, Text.dropLast?, if_neg plain]

namespace Scan

theorem openEntry_bare (bare : Bare value) (blank : ∀ c ∈ gap, isBlank c = true)
    (entries : Fields) (key : String) :
    openEntry entries key ((value ++ gap).dropWhile isBlank) = record entries key value := by
  have unquoted : openUnquoted entries key ((value ++ gap).dropWhile isBlank) =
      record entries key value := by
    have whole : ¬ IsContinued value := fun continued =>
      bare.unbroken.2 (List.IsInfix.subset continued (by simp))
    rw [openUnquoted, bare.uncontinued blank]
    simp only [decodeUnquoted, bare.trim blank, joinContinued_eq_self whole]
  rw [openEntry, bare.trim blank]
  cases value with
  | nil => exact unquoted
  | cons c rest =>
    simp only [(bare.head c rfl).2]
    exact unquoted

theorem step_bareLine (entry : BareEntry) (entries : Fields) :
    step ⟨entries, .seeking⟩ entry.line = ⟨entries.set entry.key (.str entry.value), .seeking⟩ := by
  have value : (entry.behindSign ++ (entry.value.toList ++ entry.behindValue)).dropWhile isBlank =
      (entry.value.toList ++ entry.behindValue).dropWhile isBlank :=
    List.dropWhile_append_of_pos entry.gaps.2.1.1
  have head : readHead? entry.line = some (entry.key.toList,
      (entry.value.toList ++ entry.behindValue).dropWhile isBlank) := by
    rw [BareEntry.line, ← value]
    cases word : entry.exported with
    | none => exact readHead?_spaced entry.valid entry.gaps.1.1 _
    | some blanks =>
      obtain ⟨filled, spaces⟩ := entry.apart blanks word
      rw [Option.elim_some, List.append_assoc]
      exact readHead?_exported entry.valid filled spaces.1 entry.gaps.1.1 _
  have plain : isBlankOrComment entry.line = false := by
    rw [BareEntry.line]
    cases entry.exported with
    | none => exact isBlankOrComment_key entry.valid _
    | some blanks =>
      rw [Option.elim_some, List.append_assoc]
      exact isBlankOrComment_key isKey_exportWord _
  simp only [step, seek, plain, head, Bool.false_eq_true, if_false,
    openEntry_bare entry.bare entry.gaps.2.2.1, record, String.ofList_toList]

theorem foldl_step_bareLines (entries : List BareEntry) (lower : Fields) :
    (entries.map BareEntry.line).foldl step ⟨lower, .seeking⟩ =
      ⟨lower.setAll (entries.map fun entry => (entry.key, .str entry.value)), .seeking⟩ := by
  induction entries generalizing lower with
  | nil => rfl
  | cons entry rest ih =>
    rw [List.map_cons, List.foldl_cons, step_bareLine, ih]
    rfl

end Scan

theorem BareEntry.unbroken (entry : BareEntry) : Unbroken entry.line := by
  have word : Unbroken (entry.exported.elim [] (exportWord ++ ·)) := by
    cases word : entry.exported with
    | none => simp [Unbroken]
    | some blanks => exact (unbroken_of_isKey isKey_exportWord).append (entry.apart blanks word).2.2
  have sign : Unbroken ['='] := by simp [Unbroken]
  obtain ⟨before, behind, after⟩ := entry.gaps
  exact word.append ((unbroken_of_isKey entry.valid).append (before.2.append
    (sign.append (behind.2.append (entry.bare.unbroken.append after.2)))))

theorem BareEntry.head?_line (entry : BareEntry) (behind : List Char) :
    (entry.line ++ behind).head? ≠ some '\n' := by
  have filled : entry.line ≠ [] := by simp [line]
  have unbroken := entry.unbroken
  obtain ⟨c, rest, same⟩ := List.exists_cons_of_ne_nil filled
  rw [same] at unbroken ⊢
  exact fun feed => (Text.unbroken_cons.mp unbroken).1.2 (Option.some.inj feed)

theorem lines_bareText (ended : Bool) (entry : BareEntry) (more : List BareEntry) :
    Text.lines (bareText ended (entry :: more)) =
      (entry :: more).map BareEntry.line ++ if ended then [[]] else [] := by
  induction more generalizing entry with
  | nil =>
    cases ended with
    | false => simpa [bareText] using Text.lines_prepend entry.unbroken Text.lines_nil
    | true =>
      have last : ([] : List Char).head? ≠ some '\n' := by simp
      simpa [bareText] using Text.lines_ended entry.unbroken entry.ends last
  | cons next more ih =>
    have apart : (bareText ended (next :: more)).head? ≠ some '\n' := by
      cases more <;> exact next.head?_line _
    rw [bareText, Text.lines_ended entry.unbroken entry.ends apart, ih]
    rfl

theorem read_bareText (ended : Bool) (entries : List BareEntry) :
    read (String.ofList (bareText ended entries)) =
      Fields.setAll [] (entries.map fun entry => (entry.key, .str entry.value)) := by
  cases entries with
  | nil => rfl
  | cons entry more =>
    rw [read, Scan.run, String.toList_ofList, lines_bareText, List.foldl_append, Scan.start,
      Scan.foldl_step_bareLines]
    cases ended <;> rfl

theorem bare_entries_read_back (entries : List BareEntry) (ended : Bool) :
    (read (String.ofList (bareText ended entries))).keys =
        (entries.map BareEntry.key).eraseDups ∧
      ∀ key, (read (String.ofList (bareText ended entries))).get? key =
        (entries.reverse.find? (·.key = key)).map fun entry => .str entry.value := by
  rw [read_bareText]
  constructor
  · rw [Fields.keys_setAll]
    simp [Fields.keys, Function.comp_def, List.filter_eq_self.mpr]
  · intro key
    rw [Fields.get?_setAll_last, ← List.map_reverse, List.find?_map]
    simp [Function.comp_def]

-- A key that is the word `export`, without the word before it and with it, and an empty value.
def exportEntries : List BareEntry :=
  [{ key := "export", value := "a=b c", exported := none, beforeSign := " ".toList,
     behindSign := "\t".toList, behindValue := [], lineEnd := "\r\n".toList, valid := by decide,
     bare := by decide, apart := by decide, gaps := by decide, ends := by decide },
   { key := "B", value := "", exported := none, beforeSign := [], behindSign := [],
     behindValue := " \u0085".toList, lineEnd := "\r".toList, valid := by decide,
     bare := by decide, apart := by decide, gaps := by decide, ends := by decide },
   { key := "export", value := "#\\x'", exported := some "  ".toList, beforeSign := [],
     behindSign := " ".toList, behindValue := " ".toList, lineEnd := "\n".toList,
     valid := by decide, bare := by decide, apart := by decide, gaps := by decide,
     ends := by decide }]

theorem export_entries_read_back :
    bareText true exportEntries =
        "export =\ta=b c\r\nB= \u0085\rexport  export= #\\x' \n".toList ∧
      (read (String.ofList (bareText true exportEntries))).keys = ["export", "B"] ∧
      (read (String.ofList (bareText true exportEntries))).get? "export" =
        some (.str "#\\x'") := by
  obtain ⟨order, values⟩ := bare_entries_read_back exportEntries true
  exact ⟨by decide, order.trans (by decide), (values "export").trans (by decide)⟩

end LayeredEnv.EnvFile
