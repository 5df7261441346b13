import LayeredEnv.Proofs.EnvFile.Opening
import LayeredEnv.Proofs.EnvFile.Scan
import Mathlib.Data.List.TakeWhile

set_option autoImplicit false

namespace LayeredEnv.EnvFile

open Text (isBlank)

def IsLetter (c : Char) : Prop := ('A' ≤ c ∧ c ≤ 'Z') ∨ ('a' ≤ c ∧ c ≤ 'z')

inductive Identifier : List Char → Prop
  | mk {first : Char} {rest : List Char} (start : IsLetter first ∨ first = '_')
    (inside : ∀ c ∈ rest, IsLetter c ∨ ('0' ≤ c ∧ c ≤ '9') ∨ c = '_') :
    Identifier (first :: rest)

theorem identifier_of_isKey {key : List Char} (valid : isKey key = true) : Identifier key := by
  cases key with
  | nil => cases valid
  | cons first rest =>
    simp only [isKey, isKeyStart, isKeyChar, Char.isAlphanum, Bool.and_eq_true, List.all_eq_true,
      Bool.or_eq_true, decide_eq_true_eq, isAlpha_iff, isDigit_iff] at valid
    exact .mk valid.1 fun c member => or_assoc.mp (valid.2 c member)

/-- A line that starts with a key, alone or behind the word `export` and blanks, and has an equals
sign behind the key, at once or behind blanks. -/
inductive Heads (key : List Char) : List Char → Prop
  | plain {gap : List Char} (blank : ∀ c ∈ gap, isBlank c = true) (rest : List Char) :
    Heads key (key ++ (gap ++ '=' :: rest))
  | exported {apart gap : List Char} (filled : apart ≠ [])
    (spaces : ∀ c ∈ apart, isBlank c = true) (blank : ∀ c ∈ gap, isBlank c = true)
    (rest : List Char) : Heads key (exportWord ++ (apart ++ (key ++ (gap ++ '=' :: rest))))

theorem parts_of_readAssignment? {text key value : List Char}
    (found : readAssignment? text = some (key, value)) :
    ∃ gap rest, (∀ c ∈ gap, isBlank c = true) ∧ text = key ++ (gap ++ '=' :: rest) := by
  simp only [readAssignment?] at found
  split at found
  next rest sign =>
    split at found
    next =>
      cases found
      refine ⟨(text.dropWhile isKeyChar).takeWhile isBlank, rest, fun c => ?_, ?_⟩
      · exact List.mem_takeWhile_imp
      · rw [← sign, List.takeWhile_append_dropWhile, List.takeWhile_append_dropWhile]
    next => cases found
  next => cases found

theorem heads_of_readHead? {line key value : List Char}
    (found : readHead? line = some (key, value)) : Heads key line := by
  rcases Option.or_eq_some_iff.mp found with exported | ⟨_, direct⟩
  · obtain ⟨behind, dropped, assigned⟩ := Option.bind_eq_some_iff.mp exported
    obtain ⟨c, after, rfl, spaced, rfl⟩ := dropExport?_eq_some_iff.mp dropped
    obtain ⟨gap, rest, blank, parts⟩ := parts_of_readAssignment? assigned
    rw [← List.takeWhile_append_dropWhile (p := isBlank) (l := c :: after), parts]
    refine .exported ?_ (fun d => List.mem_takeWhile_imp) blank rest
    simp [spaced]
  · obtain ⟨gap, rest, blank, rfl⟩ := parts_of_readAssignment? direct
    exact .plain blank rest

theorem heads_of_headKey? {line : List Char} {key : String} (found : key ∈ headKey? line) :
    Heads key.toList line := by
  obtain ⟨⟨name, value⟩, head, rfl⟩ := Option.map_eq_some_iff.mp found
  rw [String.toList_ofList]
  exact heads_of_readHead? head

namespace Scan

theorem Framed.length_named {owner : Option String} {make : Fields → Scan}
    (framed : Framed owner make) (entries : Fields) :
    (make entries).named.length ≤ entries.length + 1 := by
  cases framed with
  | mode mode _ => cases opened : mode.key? <;> simp [named, opened, Fields.length_keys]
  | record key value _ =>
    simpa [Scan.record, named, Mode.key?, Fields.length_keys] using Fields.length_set_le key _ entries

theorem length_named_step (scan : Scan) (line : List Char) :
    (step scan line).named.length ≤ scan.named.length + 1 := by
  refine Nat.le_trans ((step_framed scan.mode line).length_named scan.entries) ?_
  simp [named, Fields.length_keys]

theorem length_named_foldl (lines : List (List Char)) (scan : Scan) :
    (lines.foldl step scan).named.length ≤ scan.named.length + lines.length := by
  induction lines generalizing scan with
  | nil => simp
  | cons line rest ih =>
    have here := length_named_step scan line
    have later := ih (step scan line)
    rw [List.foldl_cons, List.length_cons]
    omega

theorem length_finish_le (scan : Scan) : scan.finish.length ≤ scan.named.length := by
  obtain ⟨entries, mode⟩ := scan
  cases mode with
  | seeking => simp [finish, named, Fields.length_keys]
  | continued key parts =>
    simpa [finish, record, named, Mode.key?, Fields.length_keys] using
      Fields.length_set_le key _ entries
  | quoted key quote parts =>
    simpa [finish, record, named, Mode.key?, Fields.length_keys] using
      Fields.length_set_le key _ entries

end Scan

theorem length_read_le (text : String) : (read text).length ≤ (Text.lines text.toList).length := by
  have counted := Scan.length_named_foldl (Text.lines text.toList) Scan.start
  have none : Scan.start.named.length = 0 := rfl
  rw [none, Nat.zero_add] at counted
  exact Nat.le_trans (Scan.length_finish_le _) counted

theorem entries_well_formed (text : String) :
    (∀ key ∈ (read text).keys, Identifier key.toList ∧
        ∃ line ∈ Text.lines text.toList, Heads key.toList line) ∧
      (read text).keys.Nodup ∧ (∀ entry ∈ read text, ∃ value, entry.2 = .str value) ∧
      (read text).length ≤ (Text.lines text.toList).length := by
  obtain ⟨distinct, texts⟩ := read_raw text
  refine ⟨fun key member => ?_, distinct, texts, length_read_le text⟩
  obtain ⟨line, listed, opened⟩ := mem_keys_read member
  exact ⟨identifier_of_isKey (headKey?_isKey opened), line, listed, heads_of_headKey? opened⟩

-- A quoted value holds what would be an entry elsewhere, and the text ends inside another value.
def nestedHeadText : String := "export\tB = 'x\nC=1\r\n'\rD=2 \\"

theorem nested_head_is_no_entry :
    Text.lines nestedHeadText.toList =
        ["export\tB = 'x".toList, "C=1".toList, "'".toList, "D=2 \\".toList] ∧
      (read nestedHeadText).keys = ["B", "D"] ∧
      (∃ line ∈ Text.lines nestedHeadText.toList, Heads "B".toList line) ∧
      (∃ value, (read nestedHeadText).get? "D" = some (.str value)) ∧
      (read nestedHeadText).length ≤ (Text.lines nestedHeadText.toList).length := by
  obtain ⟨headed, _, texts, bounded⟩ := entries_well_formed nestedHeadText
  have keys : (read nestedHeadText).keys = ["B", "D"] := by decide +kernel
  have last : (read nestedHeadText).get? "D" = some (.str "2") := by decide +kernel
  obtain ⟨value, same⟩ := texts _ (Fields.mem_of_get? last)
  refine ⟨by decide +kernel, keys, (headed "B" (by simp [keys])).2, ⟨value, ?_⟩, bounded⟩
  rw [last, ← same]

end LayeredEnv.EnvFile
