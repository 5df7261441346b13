import LayeredEnv.Loading.Commit
import LayeredEnv.Proofs.EnvFile.Scan
import LayeredEnv.Proofs.Outcome

set_option autoImplicit false

namespace LayeredEnv

open Disk (FilePath Tree)

namespace Loading

def rawEntries (tree : Tree) (encoding : Option String) (overlay : Overlay)
    (paths : List FilePath) : Except LoadError Fields :=
  paths.foldlM (fun merged path => (entriesOf tree encoding path).map (overlay.fields merged)) []

theorem entriesOf_raw {tree : Tree} {encoding : Option String} {path : FilePath} {entries : Fields}
    (found : entriesOf tree encoding path = .ok entries) : entries.Raw := by
  obtain ⟨text, _, rfl⟩ := map_eq_ok_iff.mp found
  exact EnvFile.read_raw text

theorem entriesOf_keyed {tree : Tree} {encoding : Option String} {path : FilePath}
    {entries : Fields} (found : entriesOf tree encoding path = .ok entries) :
    ∀ key ∈ entries.keys, EnvFile.isKey key.toList = true := by
  obtain ⟨text, _, rfl⟩ := map_eq_ok_iff.mp found
  exact EnvFile.read_keyed text

theorem isFile_of_entriesOf {tree : Tree} {encoding : Option String} {path : FilePath}
    {entries : Fields} (found : entriesOf tree encoding path = .ok entries) :
    tree.isFile path = true := by
  obtain ⟨text, read, _⟩ := map_eq_ok_iff.mp found
  obtain ⟨charset, _, read⟩ := bind_eq_ok_iff.mp read
  rw [Tree.content] at read
  cases node : tree.find path with
  | error fault => simp [node] at read
  | ok found =>
    cases found with
    | directory => simp [node] at read
    | lockedDirectory => simp [node] at read
    | lockedFile refusal => simp [node] at read
    | file bytes => rw [Tree.isFile, node]

theorem entriesOf_of_content {tree tree' : Tree} {encoding : Option String}
    {path other : FilePath} {entries : Fields} (decoders : tree.decoders = tree'.decoders)
    (same : tree.content path = tree'.content other)
    (found : entriesOf tree encoding path = .ok entries) :
    entriesOf tree' encoding other = .ok entries := by
  obtain ⟨text, read, rfl⟩ := map_eq_ok_iff.mp found
  obtain ⟨charset, labelled, read⟩ := bind_eq_ok_iff.mp read
  have label : charsetFor other encoding = .ok charset := by
    cases encoding with
    | none => exact labelled
    | some label =>
      rw [charsetFor] at labelled ⊢
      cases known : Charset.ofLabel? label <;> simp_all
  have decoded : textOf tree' encoding other = .ok text := by
    rw [textOf, label, ← same, ← decoders]
    cases content : tree.content path with
    | error fault => simp [content] at read
    | ok bytes =>
      simp only [content, decodeAs] at read
      cases decodes : @Charset.decode? tree.decoders charset bytes <;>
        simp_all [decodeAs, bind, Except.bind]
  rw [entriesOf, decoded]
  rfl

theorem rawEntries_induction {tree : Tree} {encoding : Option String} {overlay : Overlay}
    {motive : List FilePath → Fields → Prop} (empty : motive [] [])
    (laid : ∀ before merged path read, motive before merged →
      entriesOf tree encoding path = .ok read → motive (before ++ [path]) (merged.setAll read))
    {paths : List FilePath} {entries : Fields}
    (found : rawEntries tree encoding overlay paths = .ok entries) : motive paths entries := by
  suffices every : ∀ (before : List FilePath) (merged : Fields), motive before merged →
      paths.foldlM (fun merged path => (entriesOf tree encoding path).map (overlay.fields merged))
        merged = .ok entries → motive (before ++ paths) entries from every [] [] empty found
  clear found
  induction paths with
  | nil =>
    intro before merged good found
    cases found
    rwa [List.append_nil]
  | cons path rest ih =>
    intro before merged good found
    rw [List.foldlM_cons] at found
    obtain ⟨next, added, found⟩ := bind_eq_ok_iff.mp found
    obtain ⟨read, parsed, rfl⟩ := map_eq_ok_iff.mp added
    rw [List.append_cons]
    refine ih _ _ ?_ found
    rw [Overlay.fields_of_texts overlay merged read (entriesOf_raw parsed).texts]
    exact laid before merged path read good parsed

theorem rawEntries_raw {tree : Tree} {encoding : Option String} {overlay : Overlay}
    {paths : List FilePath} {entries : Fields}
    (found : rawEntries tree encoding overlay paths = .ok entries) : entries.Raw := by
  refine rawEntries_induction (motive := fun _ fields => fields.Raw) Fields.raw_nil
    (fun _ merged path read raw parsed => ?_) found
  exact raw.setAll (entriesOf_raw parsed).texts

theorem rawEntries_keyed {tree : Tree} {encoding : Option String} {overlay : Overlay}
    {paths : List FilePath} {entries : Fields}
    (found : rawEntries tree encoding overlay paths = .ok entries) :
    ∀ key ∈ entries.keys, EnvFile.isKey key.toList = true := by
  refine rawEntries_induction
    (motive := fun _ fields => ∀ key ∈ fields.keys, EnvFile.isKey key.toList = true)
    (fun _ member => absurd member List.not_mem_nil) ?_ found
  intro _ merged path read keyed parsed key member
  rcases Fields.mem_keys_setAll member with before | here
  · exact keyed key before
  · exact entriesOf_keyed parsed key here

def valueIn? (tree : Tree) (encoding : Option String) (key : String) (path : FilePath) :
    Option Json :=
  (entriesOf tree encoding path).toOption.bind (Fields.get? key)

theorem rawEntries_get? {tree : Tree} {encoding : Option String} {overlay : Overlay}
    {paths : List FilePath} {entries : Fields}
    (found : rawEntries tree encoding overlay paths = .ok entries) (key : String) :
    entries.get? key = paths.reverse.findSome? (valueIn? tree encoding key) := by
  refine rawEntries_induction
    (motive := fun paths fields =>
      fields.get? key = paths.reverse.findSome? (valueIn? tree encoding key)) rfl ?_ found
  intro before merged path read same parsed
  have here : valueIn? tree encoding key path = read.get? key := by
    rw [valueIn?, parsed]
    rfl
  rw [Fields.get?_setAll (entriesOf_raw parsed).distinct, List.reverse_append, List.reverse_singleton,
    List.singleton_append, List.findSome?_cons, here, same]
  cases read.get? key <;> rfl

theorem rawEntries_singleton (tree : Tree) (encoding : Option String) (overlay : Overlay)
    (path : FilePath) :
    rawEntries tree encoding overlay [path] = entriesOf tree encoding path := by
  rw [rawEntries, List.foldlM_cons]
  cases read : entriesOf tree encoding path with
  | error error => rfl
  | ok entries =>
    have raw := entriesOf_raw read
    exact congrArg Except.ok ((Overlay.fields_of_texts overlay [] _ raw.texts).trans
      (Fields.setAll_of_distinct raw.distinct))

theorem rawEntries_distinct_singleton (tree : Tree) (encoding : Option String) (overlay : Overlay)
    (path : FilePath) :
    rawEntries tree encoding overlay (FilePath.distinct [path]) = entriesOf tree encoding path := by
  have single : FilePath.distinct [path] = [path] := rfl
  rw [single, rawEntries_singleton]

theorem rawEntries_single {tree : Tree} {encoding : Option String} {path : FilePath} {text : String}
    (overlay : Overlay) (read : textOf tree encoding path = .ok text) :
    rawEntries tree encoding overlay (FilePath.distinct [path]) = .ok (EnvFile.read text) := by
  rw [rawEntries_distinct_singleton, entriesOf, read]
  rfl

theorem value_addFile (tree : Tree) (encoding : Option String) (overlay : Overlay)
    (merged : Fields) (path : FilePath) (session : Session) :
    (addFile tree encoding overlay merged path).value session =
      (entriesOf tree encoding path).map (overlay.fields merged) := by
  rw [addFile]
  cases entriesOf tree encoding path <;> simp [Except.bind, Except.map]

theorem addFile_quiet (tree : Tree) (encoding : Option String) (overlay : Overlay)
    (merged : Fields) (path : FilePath) : (addFile tree encoding overlay merged path).Quiet := by
  intro session
  rw [addFile]
  cases entriesOf tree encoding path <;> simp

theorem value_mergeFiles (tree : Tree) (encoding : Option String) (overlay : Overlay)
    (paths : List FilePath) (session : Session) :
    (mergeFiles tree encoding overlay paths).value session =
      rawEntries tree encoding overlay paths := by
  rw [mergeFiles, rawEntries]
  generalize ([] : Fields) = merged
  induction paths generalizing merged session with
  | nil => rfl
  | cons path rest ih =>
    rw [List.foldlM_cons, List.foldlM_cons, Action.value_bind, value_addFile]
    cases entriesOf tree encoding path with
    | ok entries => exact ih _ _
    | error error => rfl

theorem mergeFiles_quiet (tree : Tree) (encoding : Option String) (overlay : Overlay)
    (paths : List FilePath) : (mergeFiles tree encoding overlay paths).Quiet :=
  Action.Quiet.foldlM (addFile_quiet tree encoding overlay) paths []

end Loading
end LayeredEnv
