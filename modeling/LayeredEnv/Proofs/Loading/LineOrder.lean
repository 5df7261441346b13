import LayeredEnv.Proofs.Loading.Load
import LayeredEnv.Proofs.Loading.Settling

set_option autoImplicit false

namespace LayeredEnv

open Disk (FilePath Tree)

namespace EnvFile

def SingleLine (text : String) : Prop :=
  ∀ line ∈ Text.lines text.toList, (Scan.seek [] line).mode = .seeking

instance (text : String) : Decidable (SingleLine text) :=
  inferInstanceAs (Decidable (∀ line ∈ Text.lines text.toList, _))

def lineEntries (text : String) : Fields :=
  (Text.lines text.toList).flatMap fun line => (Scan.seek [] line).entries

theorem read_of_singleLine {text : String} (single : SingleLine text) :
    read text = Fields.setAll [] (lineEntries text) := by
  -- The lines so far may have given any entries; the next ones are laid over them.
  suffices every : ∀ (lines : List (List Char)) (entries : Fields),
      (∀ line ∈ lines, (Scan.seek [] line).mode = .seeking) →
      lines.foldl Scan.step ⟨entries, .seeking⟩ =
        ⟨entries.setAll (lines.flatMap fun line => (Scan.seek [] line).entries), .seeking⟩ by
    have ran := every (Text.lines text.toList) [] single
    rw [read, Scan.run, Scan.start, ran]
    rfl
  intro lines
  induction lines with
  | nil => exact fun entries _ => rfl
  | cons line rest ih =>
    intro entries closed
    have here := (Scan.seek_framed line).closed (closed line (by simp)) entries
    rw [List.foldl_cons, Scan.step, here, ih _ fun line member => closed line (by simp [member]),
      List.flatMap_cons, Fields.setAll_append]

structure SameLines (first second : String) : Prop where
  left : SingleLine first
  right : SingleLine second
  same : (lineEntries first).Perm (lineEntries second)
  distinct : (lineEntries first).keys.Nodup

theorem SameLines.read_left {first second : String} (lines : SameLines first second) :
    read first = lineEntries first := by
  rw [read_of_singleLine lines.left, Fields.setAll_of_distinct lines.distinct, List.nil_append]

theorem SameLines.symm {first second : String} (lines : SameLines first second) :
    SameLines second first :=
  ⟨lines.right, lines.left, lines.same.symm, (lines.same.map Prod.fst).nodup_iff.mp lines.distinct⟩

theorem SameLines.perm {first second : String} (lines : SameLines first second) :
    (read first).Perm (read second) := by
  rw [lines.read_left, lines.symm.read_left]
  exact lines.same

end EnvFile

def Action.Alike {α β : Type} (one : Action α) (two : Action β) (session : Session) : Prop :=
  ((∃ value final, one session = .ok value final) ↔ ∃ value final, two session = .ok value final) ∧
    ∀ value value' final final', one session = .ok value final →
      two session = .ok value' final' → final.vars = final'.vars

namespace Loading

open EnvFile (SameLines)
open Value

theorem Partway.of_perm {scope : Scope} {entries : Fields} (raw : scope.fields.Raw)
    (same : scope.fields.Perm entries) : Partway scope [] entries :=
  ⟨fun key _ => (Fields.get?_perm same raw.distinct key).symm, fun _ member => by cases member⟩

theorem Settled.reorder {scope : Scope} {one two resolved : Fields} (settled : Settled scope)
    (raw : scope.fields.Raw) (first : scope.fields.Perm one) (second : scope.fields.Perm two)
    (found : resolveEntries scope.vars one.keys one = .ok resolved) :
    ∃ other, resolveEntries scope.vars two.keys two = .ok other ∧
      ∀ key, resolved.get? key = other.get? key := by
  have keys {entries : Fields} (same : scope.fields.Perm entries) (key : String) :
      key ∈ scope.fields.keys ↔ key ∈ entries.keys := (same.map Prod.fst).mem_iff
  have outcome {entries : Fields} (same : scope.fields.Perm entries) :=
    settled.outcome (Partway.of_perm raw same) ((same.map Prod.fst).nodup_iff.mp raw.distinct)
      fun key member => raw.text ((keys same key).mpr member)
  have done := (outcome first).1 resolved found
  cases again : resolveEntries scope.vars two.keys two with
  | ok other =>
    refine ⟨other, rfl, done.unique ((outcome second).1 other again) fun key => ?_⟩
    exact (keys first key).symm.trans (keys second key)
  | error chain =>
    -- The entry that fails here has not failed there, in the other order.
    obtain ⟨key, member, absent, text, field, endless⟩ := (outcome second).2 chain again
    have before := (keys first key).mp ((keys second key).mpr member)
    obtain ⟨text', value, field', ends, _⟩ := done.resolved key before absent
    rw [field] at field'
    cases field'
    rw [ends] at endless
    cases endless

theorem vars_files_congr {tree : Tree} {settings : Settings} {one two : List FilePath}
    {session : Session} {resolved other : Fields}
    (first : (files tree settings one).value session = .ok resolved)
    (second : (files tree settings two).value session = .ok other)
    (same : ∀ key, resolved.get? key = other.get? key) :
    ((files tree settings one).after session).vars =
      ((files tree settings two).after session).vars := by
  rw [value_files] at first second
  rw [vars_files, vars_files, first, second]
  apply Std.ExtTreeMap.ext_getElem?
  intro key
  rw [varsAfter, varsAfter, getElem?_written, getElem?_written, same]

theorem Settled.follow {tree : Tree} {settings : Settings} {session final : Session}
    {one two : FilePath} {first second : String} {fields loaded : Fields}
    (settled : Settled ⟨session.vars, fields⟩) (raw : fields.Raw)
    (read : textOf tree settings.encoding one = .ok first)
    (read' : textOf tree settings.encoding two = .ok second)
    (same : fields.Perm (EnvFile.read first)) (same' : fields.Perm (EnvFile.read second))
    (ran : files tree settings [one] session = .ok loaded final) :
    ∃ other final', files tree settings [two] session = .ok other final' ∧
      final.vars = final'.vars := by
  obtain ⟨result, rfl⟩ := Action.eq_ok_iff.mp ran
  have resolved := result
  rw [value_files_single read, mapError_eq_ok_iff] at resolved
  obtain ⟨other, found, alike⟩ := settled.reorder raw same same' resolved
  have follows : (files tree settings [two]).value session = .ok other := by
    rw [value_files_single read', mapError_eq_ok_iff]
    exact found
  exact ⟨other, _, Action.eq_ok_iff.mpr ⟨follows, rfl⟩, vars_files_congr result follows alike⟩

theorem settled_lines_load_alike (tree : Tree) (settings : Settings) (session : Session)
    (one two : FilePath) (first second : String)
    (read : textOf tree settings.encoding one = .ok first)
    (read' : textOf tree settings.encoding two = .ok second)
    (lines : SameLines first second) (settled : Settled ⟨session.vars, EnvFile.read first⟩) :
    Action.Alike (files tree settings [one]) (files tree settings [two]) session := by
  have raw := EnvFile.read_raw first
  have here : (EnvFile.read first).Perm (EnvFile.read first) := .refl _
  refine ⟨⟨?_, ?_⟩, ?_⟩
  · rintro ⟨loaded, final, ran⟩
    obtain ⟨other, final', again, _⟩ := settled.follow raw read read' here lines.perm ran
    exact ⟨other, final', again⟩
  · rintro ⟨loaded, final, ran⟩
    obtain ⟨other, final', again, _⟩ := settled.follow raw read' read lines.perm here ran
    exact ⟨other, final', again⟩
  · intro loaded loaded' final final' ran ran'
    obtain ⟨other, reached, again, same⟩ := settled.follow raw read read' here lines.perm ran
    rw [again] at ran'
    cases ran'
    exact same

def versionFirst (version : String) : String := "VERSION=" ++ version ++ "\nTAG=v${VERSION}\n"

def tagFirst (version : String) : String := "TAG=v${VERSION}\nVERSION=" ++ version ++ "\n"

def versionTree (version : String) : Tree where
  nodes := [(["a"], .file (versionFirst version).toUTF8.toList),
    (["b"], .file (tagFirst version).toUTF8.toList)]
  current := ⟨"/"⟩

def versionFields (version : String) : Fields :=
  [("VERSION", .str version), ("TAG", .str "v${VERSION}")]

def tagFields (version : String) : Fields :=
  [("TAG", .str "v${VERSION}"), ("VERSION", .str version)]

theorem settled_versionFields (vars : Variables) (version : String) (plain : '$' ∉ version.toList)
    (kept : (typed version).render = version) : Settled ⟨vars, versionFields version⟩ := by
  intro key raw site target other _ field leads refers _ differ found
  have text := plain_of_no_dollar plain
  have listed := Fields.mem_of_get? field
  have listed' := Fields.mem_of_get? found
  simp only [versionFields, List.mem_cons, Prod.mk.injEq, Json.str.injEq, List.not_mem_nil,
    or_false] at listed listed'
  rcases listed with ⟨rfl, rfl⟩ | ⟨rfl, rfl⟩
  · have here := text.leads leads
    subst here
    exact absurd refers (text.not_refers target)
  · rcases listed' with ⟨_, rfl⟩ | ⟨again, _⟩
    · refine ⟨.of_plain _ plain kept, fun same => ?_⟩
      exact absurd (same ▸ refers) (text.not_refers target)
    · exact absurd again differ

theorem version_lines_load_alike :
    textOf (versionTree "2") none ⟨"/a"⟩ = .ok (versionFirst "2") ∧
    textOf (versionTree "2") none ⟨"/b"⟩ = .ok (tagFirst "2") ∧
    SameLines (versionFirst "2") (tagFirst "2") ∧
    Settled ⟨∅, EnvFile.read (versionFirst "2")⟩ ∧
    Action.Alike (files (versionTree "2") {} [⟨"/a"⟩]) (files (versionTree "2") {} [⟨"/b"⟩])
      ⟨∅, []⟩ := by
  have first : textOf (versionTree "2") none ⟨"/a"⟩ = .ok (versionFirst "2") := by decide +kernel
  have second : textOf (versionTree "2") none ⟨"/b"⟩ = .ok (tagFirst "2") := by decide +kernel
  have lines : SameLines (versionFirst "2") (tagFirst "2") :=
    ⟨by decide +kernel, by decide +kernel, by decide +kernel, by decide +kernel⟩
  have entries : EnvFile.read (versionFirst "2") = versionFields "2" := by decide +kernel
  have settled : Settled ⟨∅, EnvFile.read (versionFirst "2")⟩ := by
    rw [entries]
    exact settled_versionFields ∅ "2" (by decide) (by decide +kernel)
  exact ⟨first, second, lines, settled,
    settled_lines_load_alike (versionTree "2") {} ⟨∅, []⟩ _ _ _ _ first second lines settled⟩

theorem resolve_tag {scope : Scope} (version : String)
    (demanded : scope.demand "v${VERSION}".toList ⟨"VERSION", []⟩ =
      .site ⟨"VERSION", version.toList⟩) (plain : '$' ∉ version.toList) :
    Value.resolve scope "TAG" "v${VERSION}" =
      .ok (typed (String.ofList ('v' :: version.toList))) := by
  have first : Piece.next? "v${VERSION}".toList = some (.plain 'v', "${VERSION}".toList) := rfl
  have reference : Piece.next? "${VERSION}".toList = some (.reference ⟨"VERSION", []⟩, []) := rfl
  have entered : Site.fresh (some "TAG").toList ⟨"VERSION", version.toList⟩ = true := by
    simp [Site.fresh]
  rw [Value.resolve, expand, expandRest_plain first, expandRest_site reference demanded,
    if_pos entered, (plain_of_no_dollar plain).expandRest, expandRest_done rfl]
  simp [Except.bind, Except.map]

theorem versionTree_reads :
    textOf (versionTree "1.0") none ⟨"/a"⟩ = .ok (versionFirst "1.0") ∧
    textOf (versionTree "1.0") none ⟨"/b"⟩ = .ok (tagFirst "1.0") ∧
    EnvFile.read (versionFirst "1.0") = versionFields "1.0" ∧
    EnvFile.read (tagFirst "1.0") = tagFields "1.0" ∧ typed "1.0" = .num (.int 1) ∧
    typed "v1.0" = .str "v1.0" := by
  decide +kernel

theorem value_files_versionFirst :
    (files (versionTree "1.0") {} [⟨"/a"⟩]).value ⟨∅, []⟩ =
      .ok [("VERSION", .num (.int 1)), ("TAG", .str "v1")] := by
  obtain ⟨content, _, entries, _, number, _⟩ := versionTree_reads
  have keys : (versionFields "1.0").keys = ["VERSION", "TAG"] := rfl
  have raw : rawText ((versionFields "1.0").set "VERSION" (.num (.int 1))) "TAG" =
    "v${VERSION}" := rfl
  rw [value_files_single content, entries, keys,
    resolveEntries_of_plain "1.0" (by simp) (rawText_of_field rfl) (by decide), number,
    resolveEntries_of_not_mem (by simp), raw, resolve_tag "1" (by decide) (by decide)]
  rfl

theorem value_files_tagFirst :
    (files (versionTree "1.0") {} [⟨"/b"⟩]).value ⟨∅, []⟩ =
      .ok [("TAG", .str "v1.0"), ("VERSION", .num (.int 1))] := by
  obtain ⟨_, content, _, entries, number, text⟩ := versionTree_reads
  have keys : (tagFields "1.0").keys = ["TAG", "VERSION"] := rfl
  have raw : rawText (tagFields "1.0") "TAG" = "v${VERSION}" := rfl
  have tag : String.ofList ('v' :: "1.0".toList) = "v1.0" := rfl
  rw [value_files_single content, entries, keys, resolveEntries_of_not_mem (by simp), raw,
    resolve_tag "1.0" (by decide) (by decide), Except.bind, tag, text,
    resolveEntries_of_plain "1.0" (by simp) (rawText_of_field rfl) (by decide), number]
  rfl

theorem line_order_matters :
    ¬ ∀ (tree : Tree) (settings : Settings) (session : Session) (one two : FilePath)
      (first second : String), textOf tree settings.encoding one = .ok first →
      textOf tree settings.encoding two = .ok second → SameLines first second →
      Action.Alike (files tree settings [one]) (files tree settings [two]) session := by
  intro alike
  have lines : SameLines (versionFirst "1.0") (tagFirst "1.0") :=
    ⟨by decide +kernel, by decide +kernel, by decide +kernel, by decide +kernel⟩
  obtain ⟨_, same⟩ := alike (versionTree "1.0") {} ⟨∅, []⟩ ⟨"/a"⟩ ⟨"/b"⟩ _ _ (by decide +kernel)
    (by decide +kernel) lines
  have first := value_files_versionFirst
  have second := value_files_tagFirst
  have equal := same _ _ _ _ (Action.eq_ok_iff.mpr ⟨first, rfl⟩)
    (Action.eq_ok_iff.mpr ⟨second, rfl⟩)
  rw [value_files] at first second
  rw [vars_files, vars_files, first, second] at equal
  have tags := congrArg (fun vars : Variables => vars["TAG"]?) equal
  revert tags
  decide +kernel

end Loading
end LayeredEnv
