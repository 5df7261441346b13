import LayeredEnv.Proofs.Loading.Entries

set_option autoImplicit false

namespace LayeredEnv

open Disk (FilePath Tree)

namespace Loading

def Decodes (tree : Tree) (encoding : Option String) (path : FilePath) : Prop :=
  ∃ charset bytes text, charsetFor path encoding = .ok charset ∧ tree.content path = .ok bytes ∧
    @Charset.decode? tree.decoders charset bytes = some text

def failureIn? (tree : Tree) (encoding : Option String) (path : FilePath) : Option LoadError :=
  match textOf tree encoding path with
  | .ok _ => none
  | .error error => some error

def keysIn (tree : Tree) (encoding : Option String) (path : FilePath) : List String :=
  (entriesOf tree encoding path).toOption.elim [] Fields.keys

variable {tree : Tree} {encoding : Option String}

theorem failureIn?_eq_none_iff {path : FilePath} :
    failureIn? tree encoding path = none ↔ Decodes tree encoding path := by
  rw [failureIn?, textOf, Decodes]
  cases known : charsetFor path encoding with
  | error error => simp [bind, Except.bind]
  | ok charset =>
    cases content : tree.content path with
    | error fault => simp [bind, Except.bind]
    | ok bytes =>
      cases decoded : @Charset.decode? tree.decoders charset bytes <;>
        simp [bind, Except.bind, decodeAs, decoded]

theorem entriesOf_eq_ok {path : FilePath} (readable : failureIn? tree encoding path = none) :
    ∃ entries, entriesOf tree encoding path = .ok entries := by
  rw [failureIn?] at readable
  rw [entriesOf]
  cases read : textOf tree encoding path with
  | ok text => exact ⟨_, rfl⟩
  | error error => simp [read] at readable

theorem entriesOf_eq_error {path : FilePath} {error : LoadError}
    (failed : failureIn? tree encoding path = some error) :
    entriesOf tree encoding path = .error error := by
  rw [failureIn?] at failed
  rw [entriesOf]
  cases read : textOf tree encoding path with
  | ok text => simp [read] at failed
  | error cause =>
    simp only [read, Option.some.injEq] at failed
    subst failed
    rfl

-- Files hold texts only, so the overlay plays no part.
theorem map_fields_entriesOf (overlay : Overlay) (merged : Fields) (path : FilePath) :
    (entriesOf tree encoding path).map (overlay.fields merged) =
      (entriesOf tree encoding path).map merged.setAll := by
  cases read : entriesOf tree encoding path with
  | error error => rfl
  | ok entries =>
    exact congrArg Except.ok (Overlay.fields_of_texts overlay merged _ (entriesOf_raw read).texts)

def readOver (tree : Tree) (encoding : Option String) (paths : List FilePath) (merged : Fields) :
    Except LoadError Fields :=
  paths.foldlM (fun merged path => (entriesOf tree encoding path).map merged.setAll) merged

theorem rawEntries_eq (overlay : Overlay) (paths : List FilePath) :
    rawEntries tree encoding overlay paths = readOver tree encoding paths [] :=
  congrArg (fun step => paths.foldlM step [])
    (funext fun merged => funext fun path => map_fields_entriesOf overlay merged path)

theorem readOver_cons (path : FilePath) (rest : List FilePath) (merged : Fields) :
    readOver tree encoding (path :: rest) merged =
      (entriesOf tree encoding path).bind fun read =>
        readOver tree encoding rest (merged.setAll read) := by
  rw [readOver, List.foldlM_cons]
  cases entriesOf tree encoding path <;> rfl

theorem readOver_eq_error {paths : List FilePath} {error : LoadError}
    (failed : paths.findSome? (failureIn? tree encoding) = some error) (merged : Fields) :
    readOver tree encoding paths merged = .error error := by
  induction paths generalizing merged with
  | nil => cases failed
  | cons path rest ih =>
    rw [readOver_cons]
    rw [List.findSome?_cons] at failed
    cases failure : failureIn? tree encoding path with
    | some first =>
      rw [failure] at failed
      cases failed
      rw [entriesOf_eq_error failure]
      rfl
    | none =>
      rw [failure] at failed
      obtain ⟨read, parsed⟩ := entriesOf_eq_ok failure
      rw [parsed]
      exact ih failed _

theorem readOver_eq_ok {paths : List FilePath}
    (readable : paths.findSome? (failureIn? tree encoding) = none) (merged : Fields) :
    ∃ final, readOver tree encoding paths merged = .ok final := by
  induction paths generalizing merged with
  | nil => exact ⟨merged, rfl⟩
  | cons path rest ih =>
    rw [List.findSome?_eq_none_iff] at readable
    obtain ⟨read, parsed⟩ := entriesOf_eq_ok (readable path (by simp))
    rw [readOver_cons, parsed]
    refine ih (List.findSome?_eq_none_iff.mpr fun other member => ?_) _
    exact readable other (List.mem_cons_of_mem _ member)

theorem readOver_eq_ok_iff {paths : List FilePath} {merged : Fields} :
    (∃ final, readOver tree encoding paths merged = .ok final) ↔
      ∀ path ∈ paths, Decodes tree encoding path := by
  simp only [← failureIn?_eq_none_iff, ← List.findSome?_eq_none_iff]
  refine ⟨fun ⟨final, read⟩ => ?_, fun readable => readOver_eq_ok readable merged⟩
  cases failed : paths.findSome? (failureIn? tree encoding) with
  | none => rfl
  | some error =>
    rw [readOver_eq_error failed] at read
    cases read

theorem readOver_eq_error_iff {paths : List FilePath} {merged : Fields} {error : LoadError} :
    readOver tree encoding paths merged = .error error ↔
      paths.findSome? (failureIn? tree encoding) = some error := by
  refine ⟨fun failed => ?_, fun failed => readOver_eq_error failed merged⟩
  cases first : paths.findSome? (failureIn? tree encoding) with
  | none =>
    obtain ⟨final, read⟩ := readOver_eq_ok first merged
    rw [read] at failed
    cases failed
  | some cause =>
    rw [readOver_eq_error first] at failed
    cases failed
    rfl

theorem readOver_setAll {middle : Fields} (raw : middle.Raw) (paths : List FilePath)
    (lower : Fields) :
    readOver tree encoding paths (lower.setAll middle) =
      (readOver tree encoding paths middle).map lower.setAll := by
  induction paths generalizing middle with
  | nil => rfl
  | cons path rest ih =>
    rw [readOver_cons, readOver_cons]
    cases parsed : entriesOf tree encoding path with
    | error error => rfl
    | ok read =>
      -- The next file joins the middle layer, which still holds texts only.
      have later := ih (raw.setAll (entriesOf_raw parsed).texts)
      rw [Fields.setAll_setAll raw.distinct] at later
      exact later

theorem readOver_append (before after : List FilePath) :
    readOver tree encoding (before ++ after) [] =
      (readOver tree encoding before []).bind fun lower =>
        (readOver tree encoding after []).map lower.setAll := by
  rw [readOver, List.foldlM_append]
  refine congrArg (Except.bind (readOver tree encoding before [])) (funext fun lower => ?_)
  exact readOver_setAll Fields.raw_nil after lower

theorem keys_rawEntries {overlay : Overlay} {paths : List FilePath} {merged : Fields}
    (found : rawEntries tree encoding overlay paths = .ok merged) :
    merged.keys = (paths.flatMap (keysIn tree encoding)).eraseDups := by
  refine rawEntries_induction
    (motive := fun paths fields =>
      fields.keys = (paths.flatMap (keysIn tree encoding)).eraseDups) rfl ?_ found
  intro before merged path read same parsed
  -- One more file adds the keys that no earlier file has, in its own order.
  have here : keysIn tree encoding path = read.keys := by
    rw [keysIn, parsed]
    rfl
  have fresh : read.keys.removeAll (before.flatMap (keysIn tree encoding)) =
      read.keys.filter (· ∉ merged.keys) := by
    rw [same]
    exact List.filter_congr fun key _ => by simp [-List.mem_flatMap]
  rw [Fields.keys_setAll, List.flatMap_append, List.flatMap_singleton, here,
    List.eraseDups_append, ← same, fresh]

/-- Reading several files succeeds exactly if each of them can be read, and otherwise fails as the
first that cannot be read does. Each key has the value of the last file that has it, the keys come
in the order in which the files first name them, and reading one list of files after another lays
the second result over the first. No overlay makes a difference to the result. -/
theorem files_merge_in_order (tree : Tree) (encoding : Option String) (overlay : Overlay)
    (paths : List FilePath) (session : Session) :
    ((∃ merged, (mergeFiles tree encoding overlay paths).value session = .ok merged) ↔
      ∀ path ∈ paths, Decodes tree encoding path) ∧
    (∀ error, (mergeFiles tree encoding overlay paths).value session = .error error ↔
      paths.findSome? (failureIn? tree encoding) = some error) ∧
    (∀ merged, (mergeFiles tree encoding overlay paths).value session = .ok merged →
      merged.keys = (paths.flatMap (keysIn tree encoding)).eraseDups ∧
      ∀ key, merged.get? key = paths.reverse.findSome? (valueIn? tree encoding key)) ∧
    (∀ before after first second, paths = before ++ after →
      (mergeFiles tree encoding overlay paths).value session =
        ((mergeFiles tree encoding overlay before).value first).bind fun lower =>
          ((mergeFiles tree encoding overlay after).value second).map (overlay.fields lower)) ∧
    ∀ other, (mergeFiles tree encoding other paths).value session =
      (mergeFiles tree encoding overlay paths).value session := by
  simp only [value_mergeFiles]
  refine ⟨?_, fun error => ?_, fun merged found => ?_, ?_, fun other => ?_⟩
  · rw [rawEntries_eq]
    exact readOver_eq_ok_iff
  · rw [rawEntries_eq]
    exact readOver_eq_error_iff
  · exact ⟨keys_rawEntries found, rawEntries_get? found⟩
  · rintro before after _ _ rfl
    rw [rawEntries_eq, readOver_append, ← rawEntries_eq overlay, ← rawEntries_eq overlay]
    refine congrArg (Except.bind (rawEntries tree encoding overlay before)) (funext fun lower => ?_)
    cases read : rawEntries tree encoding overlay after with
    | error error => rfl
    | ok upper =>
      have texts := (rawEntries_raw read).texts
      exact congrArg Except.ok (Overlay.fields_of_texts overlay lower upper texts).symm
  · rw [rawEntries_eq, rawEntries_eq]

def sharedTree : Tree where
  nodes := [(["a"], .file "B=1\nA=2\n".toUTF8.toList), (["b"], .file "A=3\nC=4\n".toUTF8.toList)]
  current := ⟨"/"⟩

def sharedFields : Fields := [("B", .str "1"), ("A", .str "3"), ("C", .str "4")]

theorem sharedTree_reads :
    (rawEntries sharedTree none Overlay.default [⟨"/a"⟩, ⟨"/b"⟩]).toOption = some sharedFields ∧
    failureIn? sharedTree none ⟨"/a"⟩ = none ∧
    failureIn? sharedTree none ⟨"/gone"⟩ = some (.unreadable ⟨"/gone"⟩ .missing) := by
  decide +kernel

-- A key of both files, and a list of files with one that is not there.
theorem shared_key_keeps_place :
    (mergeFiles sharedTree none Overlay.default [⟨"/a"⟩, ⟨"/b"⟩]).value ⟨∅, []⟩ =
      .ok sharedFields ∧
    sharedFields.keys =
      ([⟨"/a"⟩, ⟨"/b"⟩].flatMap (keysIn sharedTree none)).eraseDups ∧
    sharedFields.get? "A" = [⟨"/b"⟩, ⟨"/a"⟩].findSome? (valueIn? sharedTree none "A") ∧
    (mergeFiles sharedTree none ⟨.append, true⟩ [⟨"/a"⟩, ⟨"/b"⟩]).value ⟨∅, []⟩ =
      .ok sharedFields ∧
    (mergeFiles sharedTree none Overlay.default [⟨"/a"⟩, ⟨"/gone"⟩, ⟨"/b"⟩]).value ⟨∅, []⟩ =
      .error (.unreadable ⟨"/gone"⟩ .missing) := by
  obtain ⟨merged, present, gone⟩ := sharedTree_reads
  have read : (mergeFiles sharedTree none Overlay.default [⟨"/a"⟩, ⟨"/b"⟩]).value ⟨∅, []⟩ =
      .ok sharedFields := by
    rw [value_mergeFiles]
    cases result : rawEntries sharedTree none Overlay.default [⟨"/a"⟩, ⟨"/b"⟩] <;>
      simp_all [Except.toOption]
  obtain ⟨_, _, holds, _, alike⟩ :=
    files_merge_in_order sharedTree none Overlay.default [⟨"/a"⟩, ⟨"/b"⟩] ⟨∅, []⟩
  obtain ⟨_, fails, _⟩ := files_merge_in_order sharedTree none Overlay.default
    [⟨"/a"⟩, ⟨"/gone"⟩, ⟨"/b"⟩] ⟨∅, []⟩
  refine ⟨read, (holds _ read).1, (holds _ read).2 "A", (alike _).trans read, (fails _).mpr ?_⟩
  simp [present, gone]

end Loading
end LayeredEnv
