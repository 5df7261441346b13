import LayeredEnv.EnvFile.Document
import LayeredEnv.Proofs.Fields

set_option autoImplicit false

namespace LayeredEnv.EnvFile

def Mode.key? : Mode → Option String
  | .seeking => none
  | .continued key _ => some key
  | .quoted key _ _ => some key

def headKey? (line : List Char) : Option String :=
  (readHead? line).map fun head => String.ofList head.1

theorem readAssignment?_isKey {text key value : List Char}
    (found : readAssignment? text = some (key, value)) : isKey key = true := by
  simp only [readAssignment?] at found
  split at found
  next =>
    split at found
    next valid =>
      cases found
      exact valid
    next => cases found
  next => cases found

theorem headKey?_isKey {line : List Char} {key : String} (found : key ∈ headKey? line) :
    isKey key.toList = true := by
  obtain ⟨⟨name, value⟩, head, rfl⟩ := Option.map_eq_some_iff.mp found
  rw [String.toList_ofList]
  simp only [readHead?, Option.or_eq_some_iff, Option.bind_eq_some_iff] at head
  rcases head with ⟨_, _, exported⟩ | ⟨_, direct⟩
  · exact readAssignment?_isKey exported
  · exact readAssignment?_isKey direct

namespace Scan

variable {owner : Option String} {make : Fields → Scan}

/-- What is made of the entries so far: another mode is entered, or one more entry is completed.
Neither depends on what the entries are, and no entry is opened or completed but that of `owner`. -/
inductive Framed (owner : Option String) : (Fields → Scan) → Prop
  | mode (mode : Mode) (owned : ∀ key ∈ mode.key?, key ∈ owner) :
    Framed owner fun entries => ⟨entries, mode⟩
  | record (key : String) (value : List Char) (owned : key ∈ owner) :
    Framed owner fun entries => record entries key value

theorem openQuoted_framed (key : String) (quote : Quote) (text : List Char) :
    Framed (some key) fun entries => openQuoted entries key quote text := by
  cases closing : quote.splitClosing? text <;> simp only [openQuoted, closing]
  next => exact .mode _ (by simp [Mode.key?])
  next => exact .record _ _ rfl

theorem openUnquoted_framed (key : String) (text : List Char) :
    Framed (some key) fun entries => openUnquoted entries key text := by
  cases continued : Text.dropLast? '\\' text <;> simp only [openUnquoted, continued]
  next => exact .record _ _ rfl
  next => exact .mode _ (by simp [Mode.key?])

theorem openEntry_framed (key : String) (text : List Char) :
    Framed (some key) fun entries => openEntry entries key text := by
  cases trimmed : Text.trim text with
  | nil => simpa only [openEntry, trimmed] using openUnquoted_framed key text
  | cons c rest =>
    cases marked : Quote.ofChar? c with
    | some quote => simpa only [openEntry, trimmed, marked] using openQuoted_framed key quote rest
    | none => simpa only [openEntry, trimmed, marked] using openUnquoted_framed key text

theorem seek_framed (line : List Char) :
    Framed (headKey? line) fun entries => seek entries line := by
  cases blank : isBlankOrComment line <;>
    simp only [seek, blank, if_true, Bool.false_eq_true, if_false]
  next =>
    cases head : readHead? line with
    | some parts =>
      simpa only [headKey?, head, Option.map_some] using
        openEntry_framed (String.ofList parts.1) parts.2
    | none => exact .mode _ (by simp [Mode.key?])
  next => exact .mode _ (by simp [Mode.key?])

theorem continueUnquoted_framed (key : String) (parts : List (List Char)) (line : List Char) :
    Framed (some key) fun entries => continueUnquoted entries key parts line := by
  cases blank : isBlankOrComment line <;>
    simp only [continueUnquoted, blank, if_true, Bool.false_eq_true, if_false]
  next =>
    cases continued : Text.dropLast? '\\' line with
    | some fragment => exact .mode _ (by simp [Mode.key?])
    | none => exact .record _ _ rfl
  next => exact .mode _ (by simp [Mode.key?])

theorem continueQuoted_framed (key : String) (quote : Quote) (parts : List (List Char))
    (line : List Char) :
    Framed (some key) fun entries => continueQuoted entries key quote parts line := by
  cases closing : quote.splitClosing? line <;> simp only [continueQuoted, closing]
  next => exact .mode _ (by simp [Mode.key?])
  next => exact .record _ _ rfl

theorem step_framed (mode : Mode) (line : List Char) :
    Framed (mode.key?.or (headKey? line)) fun entries => step ⟨entries, mode⟩ line := by
  cases mode with
  | seeking => exact seek_framed line
  | continued key parts => exact continueUnquoted_framed key parts line
  | quoted key quote parts => exact continueQuoted_framed key quote parts line

theorem Framed.raw (framed : Framed owner make) {entries : Fields} (raw : entries.Raw) :
    (make entries).entries.Raw := by
  cases framed with
  | mode mode _ => exact raw
  | record key value _ => exact raw.set key _

theorem Framed.laid (framed : Framed owner make) {upper : Fields} (distinct : upper.keys.Nodup)
    (lower : Fields) :
    make (lower.setAll upper) = ⟨lower.setAll (make upper).entries, (make upper).mode⟩ := by
  cases framed with
  | mode mode _ => rfl
  | record key value _ => simp only [Scan.record, Fields.setAll_set distinct]

theorem Framed.closed (framed : Framed owner make) (closed : (make []).mode = .seeking)
    (entries : Fields) : make entries = ⟨entries.setAll (make []).entries, .seeking⟩ := by
  rw [← closed]
  exact framed.laid Fields.raw_nil.distinct entries

theorem Framed.owned (framed : Framed owner make) {entries : Fields} {key : String}
    (opened : key ∈ (make entries).mode.key?) : key ∈ owner := by
  cases framed with
  | mode mode owned => exact owned key opened
  | record key value _ => cases opened

theorem Framed.get?_of_not_mem (framed : Framed owner make) {key : String} (other : key ∉ owner)
    (entries : Fields) : (make entries).entries.get? key = entries.get? key := by
  cases framed with
  | mode mode _ => rfl
  | record name value owned =>
    have differ : name ≠ key := fun same => other (same ▸ owned)
    exact Fields.get?_set_of_ne differ _ _

theorem Framed.mem_keys (framed : Framed owner make) {entries : Fields} {key : String}
    (member : key ∈ (make entries).entries.keys) : key ∈ entries.keys ∨ key ∈ owner := by
  cases framed with
  | mode mode _ => exact .inl member
  | record name value owned =>
    rcases Fields.mem_keys_set member with rfl | before
    · exact .inr owned
    · exact .inl before

def named (scan : Scan) : List String := scan.entries.keys ++ scan.mode.key?.toList

theorem mem_named {scan : Scan} {key : String} :
    key ∈ scan.named ↔ key ∈ scan.entries.keys ∨ key ∈ scan.mode.key? := by
  simp [named]

theorem mem_named_step {scan : Scan} {line : List Char} {key : String}
    (member : key ∈ (step scan line).named) : key ∈ scan.named ∨ key ∈ headKey? line := by
  have framed := step_framed scan.mode line
  -- The line belongs to the entry that is open, or else to the one that it opens.
  have owned (owner : key ∈ scan.mode.key?.or (headKey? line)) :
      key ∈ scan.named ∨ key ∈ headKey? line := by
    rcases Option.or_eq_some_iff.mp owner with before | ⟨_, here⟩
    · exact .inl (mem_named.mpr (.inr before))
    · exact .inr here
  rcases mem_named.mp member with complete | opened
  · rcases framed.mem_keys complete with before | owner
    · exact .inl (mem_named.mpr (.inl before))
    · exact owned owner
  · exact owned (framed.owned opened)

theorem mem_named_foldl {lines : List (List Char)} {scan : Scan} {key : String}
    (member : key ∈ (lines.foldl step scan).named) :
    key ∈ scan.named ∨ ∃ line ∈ lines, key ∈ headKey? line := by
  induction lines generalizing scan with
  | nil => exact .inl member
  | cons line rest ih =>
    rcases ih member with here | ⟨other, listed, later⟩
    · exact (mem_named_step here).imp_right fun opened => ⟨line, by simp, opened⟩
    · exact .inr ⟨other, by simp [listed], later⟩

theorem mem_keys_finish {scan : Scan} {key : String} (member : key ∈ scan.finish.keys) :
    key ∈ scan.named := by
  rw [finish] at member
  split at member
  next => exact mem_named.mpr (.inl member)
  next name parts mode =>
    rcases Fields.mem_keys_set member with rfl | before
    · exact mem_named.mpr (.inr (by simp [mode, Mode.key?]))
    · exact mem_named.mpr (.inl before)
  next name quote parts mode =>
    rcases Fields.mem_keys_set member with rfl | before
    · exact mem_named.mpr (.inr (by simp [mode, Mode.key?]))
    · exact mem_named.mpr (.inl before)

theorem get?_finish {scan : Scan} {key : String} (apart : key ∉ scan.mode.key?) :
    scan.finish.get? key = scan.entries.get? key := by
  rw [finish]
  split
  next => rfl
  next other parts opened =>
    have differ : other ≠ key := fun same => apart (by simp [opened, Mode.key?, same])
    exact Fields.get?_set_of_ne differ _ _
  next other quote parts opened =>
    have differ : other ≠ key := fun same => apart (by simp [opened, Mode.key?, same])
    exact Fields.get?_set_of_ne differ _ _

-- A property of a scan that every line keeps holds of a whole text.
theorem run_induction {motive : Scan → Prop} (empty : motive start)
    (next : ∀ scan line, motive scan → motive (step scan line)) (text : List Char) :
    motive (run text) :=
  List.foldlRecOn (Text.lines text) step empty fun scan kept line _ => next scan line kept

theorem run_raw (text : List Char) : (run text).entries.Raw := by
  apply run_induction (motive := fun scan => scan.entries.Raw) Fields.raw_nil
  intro scan line raw
  exact (step_framed scan.mode line).raw raw

end Scan

theorem read_raw (text : String) : (read text).Raw := by
  have raw := Scan.run_raw text.toList
  rw [read, Scan.finish]
  split
  · exact raw
  · exact raw.set _ _
  · exact raw.set _ _

theorem mem_keys_read {text key : String} (member : key ∈ (read text).keys) :
    ∃ line ∈ Text.lines text.toList, key ∈ headKey? line := by
  rcases Scan.mem_named_foldl (Scan.mem_keys_finish member) with none | opened
  · cases none
  · exact opened

theorem read_keyed (text : String) : ∀ key ∈ (read text).keys, isKey key.toList = true := by
  intro key member
  obtain ⟨line, _, opened⟩ := mem_keys_read member
  exact headKey?_isKey opened

end LayeredEnv.EnvFile
