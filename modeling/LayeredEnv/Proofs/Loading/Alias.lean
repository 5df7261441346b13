import LayeredEnv.Proofs.EnvFile.Opening
import LayeredEnv.Proofs.Loading.Load
import LayeredEnv.Proofs.Loading.Settling
import LayeredEnv.Proofs.Value.Alias

set_option autoImplicit false

namespace LayeredEnv.Loading

open Disk (FilePath Tree)
open Value

theorem isName_of_isKey {key : String} (valid : EnvFile.isKey key.toList = true) : IsName key := by
  constructor
  · rintro rfl
    cases valid
  · intro c member
    have inside := EnvFile.isKeyChar_of_isKey valid c member
    simp only [EnvFile.isKeyChar, isNameChar, Bool.or_eq_true] at inside ⊢
    exact .inl inside

def SettledUntil (turn : Scope) (later : List String) (name : String) : Prop :=
  ∀ source, turn.fields.get? name = some (.str source) →
    SettledAlong turn (later.takeWhile (· ≠ name)) ⟨some name, source.toList⟩

theorem SettledUntil.along {turn : Scope} {name source : String} {between rest : List String}
    (settled : SettledUntil turn (between ++ name :: rest) name) (unlisted : name ∉ between)
    (field : turn.fields.get? name = some (.str source)) :
    SettledAlong turn between ⟨some name, source.toList⟩ := by
  have other : ∀ key ∈ between, decide (key ≠ name) = true := by
    intro key member
    simpa using ne_of_mem_of_not_mem member unlisted
  have along := settled source field
  rw [List.takeWhile_append_of_pos other] at along
  simpa using along

section

variable {vars : Variables} {turn entries resolved : Fields} {name copy source : String}
variable {between rest : List String}

theorem unroll_in_turn (named : IsName name) (outside : name ∉ vars) (absent : copy ∉ vars)
    (apart : (copy :: between).Nodup) (unlisted : name ∉ copy :: between)
    (texts : ∀ key ∈ between, ∃ text, turn.get? key = some (.str text))
    (field : turn.get? name = some (.str source))
    (copied : turn.get? copy = some (.str (referenceTo name)))
    (settled : SettledAlong ⟨vars, turn⟩ between ⟨some name, source.toList⟩)
    (found : resolveEntries vars (copy :: between) turn = .ok entries) :
    unroll ⟨vars, entries⟩ source = unroll ⟨vars, turn⟩ (referenceTo name) := by
  have same : unroll ⟨vars, turn⟩ (referenceTo name) = unroll ⟨vars, turn⟩ source :=
    unroll_referenceTo_of_field ⟨vars, turn⟩ named outside field
  obtain ⟨text, ends, _⟩ := resolveEntries_cons_eq_ok absent copied found
  obtain ⟨chars, unrolled, _⟩ := Option.map_eq_some_iff.mp (same ▸ ends)
  have differ : name ≠ copy := fun equal => unlisted (by simp [equal])
  -- The copy itself never comes up, since the expansion of its name ends.
  have whole : SettledAlong ⟨vars, turn⟩ (copy :: between) ⟨some name, source.toList⟩ := by
    intro site target other leads refers listed free held
    have other := not_refers_back named differ outside absent field copied unrolled leads refers
    exact settled site target _ leads refers (List.mem_of_ne_of_mem other listed) free held
  have sources : ∀ key ∈ copy :: between, ∃ text, turn.get? key = some (.str text) := by
    intro key member
    rcases List.mem_cons.mp member with rfl | inside
    · exact ⟨_, copied⟩
    · exact texts key inside
  have fresh : PartwayAmong ⟨vars, turn⟩ (RefersAlong ⟨vars, turn⟩ ⟨some name, source.toList⟩) []
      turn := ⟨fun _ _ => rfl, fun _ member => absurd member List.not_mem_nil⟩
  -- So the source gives in its own turn what it gives in the turn of the copy.
  rw [same]
  have partway := (whole.readsRaw.outcome fresh apart (List.Subset.refl _) sources).1 entries found
  exact whole.unroll_eq partway (.refl _) unlisted

theorem copy_of_later (named : IsName name) (outside : name ∉ vars) (absent : copy ∉ vars)
    (apart : (copy :: (between ++ name :: rest)).Nodup)
    (texts : ∀ key ∈ between, ∃ text, turn.get? key = some (.str text))
    (field : turn.get? name = some (.str source))
    (copied : turn.get? copy = some (.str (referenceTo name)))
    (settled : SettledAlong ⟨vars, turn⟩ between ⟨some name, source.toList⟩)
    (found : resolveEntries vars (copy :: (between ++ name :: rest)) turn = .ok resolved) :
    ∃ text, unroll ⟨vars, turn⟩ (referenceTo name) = some text ∧
      resolved.get? name = some (typed text) := by
  rw [← List.cons_append] at apart found
  obtain ⟨before, after, disjoint⟩ := List.nodup_append.mp apart
  have unlisted : name ∉ copy :: between := fun member => disjoint name member name (by simp) rfl
  rw [resolveEntries_append] at found
  obtain ⟨entries, reached, found⟩ := bind_eq_ok_iff.mp found
  have held := (resolveEntries_get?_of_not_mem unlisted reached).trans field
  obtain ⟨text, ends, found⟩ := resolveEntries_cons_eq_ok outside held found
  refine ⟨text, ?_, ?_⟩
  · rw [← ends]
    exact (unroll_in_turn named outside absent before unlisted texts field copied settled
      reached).symm
  · rw [resolveEntries_get?_of_not_mem (List.nodup_cons.mp after).1 found, Fields.get?_set_self]

end

/-- An entry that is a reference has the text of its name exactly if what stands for the name in the
turn of the entry gives that text when it is expanded and typed once more. It has that text if the
name is resolved later, and what is resolved between them is settled for the expansion. -/
theorem copy_agrees_iff (tree : Tree) (settings : Settings) (session final : Session)
    (paths : List FilePath) (raw turn loaded : Fields) (name copy : String)
    (earlier later : List String)
    (read : rawEntries tree settings.encoding settings.overlay (FilePath.distinct paths) = .ok raw)
    (order : raw.keys = earlier ++ copy :: later)
    (copied : raw.get? copy = some (.str (referenceTo name)))
    (absent : copy ∉ session.vars)
    (defined : name ∈ raw.keys ∨ name ∈ session.vars ∧ IsName name)
    (ran : files tree settings paths session = .ok loaded final)
    (reached : resolveEntries session.vars earlier raw = .ok turn) :
    ∃ text other, final.vars[name]? = some text ∧ final.vars[copy]? = some other ∧
      (other = text ↔ Passes ⟨session.vars, turn⟩ name text) ∧
      (name ∉ session.vars → name ∈ later → SettledUntil ⟨session.vars, turn⟩ later name →
        other = text) := by
  have entries := rawEntries_raw read
  have distinct := entries.distinct
  rw [order] at distinct
  have apart := (List.nodup_append.mp distinct).2.1
  have named : IsName name := by
    rcases defined with member | ⟨_, named⟩
    · exact isName_of_isKey (rawEntries_keyed read name member)
    · exact named
  obtain ⟨text, here⟩ := files_defines ran read (defined.imp_right And.left)
  obtain ⟨raw', read', resolved, vars⟩ := files_eq_ok ran
  rw [read] at read'
  cases read'
  -- From the turn of the copy on, the entries are the raw ones still.
  rw [order] at resolved
  obtain ⟨found, kept⟩ := resolveEntries_reached distinct reached resolved
  have held := (kept copy (by simp)).trans copied
  obtain ⟨expanded, ends, after⟩ := resolveEntries_cons_eq_ok absent held found
  have there : final.vars[copy]? = some (typed expanded).render := by
    rw [vars, Std.ExtTreeMap.getElem?_eq_none absent,
      resolveEntries_get?_of_not_mem (List.nodup_cons.mp apart).1 after, Fields.get?_set_self]
    rfl
  refine ⟨text, _, here, there, (passes_iff named ends text).symm, ?_⟩
  intro outside listed settled
  obtain ⟨between, rest, rfl, unlisted⟩ := List.eq_append_cons_of_mem listed
  have texts : ∀ key ∈ between ++ name :: rest, ∃ text, turn.get? key = some (.str text) := by
    intro key member
    rw [kept key (List.mem_cons_of_mem _ member)]
    refine entries.text ?_
    rw [order]
    exact List.mem_append_right _ (List.mem_cons_of_mem _ member)
  obtain ⟨source, field⟩ := texts name (by simp)
  obtain ⟨same, gives, resolves⟩ := copy_of_later named outside absent apart
    (fun key member => texts key (by simp [member])) field held (settled.along unlisted field) found
  rw [ends] at gives
  cases gives
  rw [vars, Std.ExtTreeMap.getElem?_eq_none outside, resolves] at here
  exact Option.some.inj here

def fileTree (text : String) : Tree where
  nodes := [(["a"], .file text.toUTF8.toList)]
  current := ⟨"/"⟩

def copyText : String := "B=${A}\nN=2\nA=v${N}\n"

def copyFields : Fields := [("B", .str "${A}"), ("N", .str "2"), ("A", .str "v${N}")]

theorem unroll_prefixed {scope : Scope}
    (demanded : scope.demand "v${N}".toList ⟨"N", []⟩ = .site ⟨some "N", "2".toList⟩) :
    unroll scope "v${N}" = some "v2" := by
  have first : Piece.next? "v${N}".toList = some (.plain 'v', "${N}".toList) := rfl
  have reference : Piece.next? "${N}".toList = some (.reference ⟨"N", []⟩, []) := rfl
  have inside : Plain "2".toList := plain_of_no_dollar (by decide)
  rw [unroll, unrollRest_eq, unrollStep, first]
  simp only [unrollRest_reference reference, demanded, Demand.answer, inside.unrollRest,
    Plain.nil.unrollRest]
  rfl

theorem isName_a : IsName "A" := isName_of_isKey (by decide)

theorem fileTree_reads :
    textOf (fileTree copyText) none ⟨"/a"⟩ = .ok copyText ∧ EnvFile.read copyText = copyFields ∧
    textOf (fileTree "B=${A}\n") none ⟨"/a"⟩ = .ok "B=${A}\n" ∧
    EnvFile.read "B=${A}\n" = [("B", .str "${A}")] ∧
    typed "2" = .num (.int 2) ∧ typed "1.0" = .num (.int 1) := by
  decide +kernel

theorem value_files_copyText :
    (files (fileTree copyText) {} [⟨"/a"⟩]).value ⟨∅, []⟩ =
      .ok [("B", .str "v2"), ("N", .num (.int 2)), ("A", .str "v2")] := by
  obtain ⟨content, entries, _, _, number, _⟩ := fileTree_reads
  have keys : copyFields.keys = ["B", "N", "A"] := rfl
  have above : unroll ⟨∅, copyFields⟩ "${A}" = some "v2" := by
    have field : copyFields.get? "A" = some (.str "v${N}") := rfl
    exact (unroll_referenceTo_of_field ⟨∅, copyFields⟩ isName_a (by decide) field).trans
      (unroll_prefixed (by decide))
  rw [value_files_single content, entries, keys,
    resolveEntries_of_unroll (by simp) rfl above,
    resolveEntries_of_plain "2" (by simp) (rawText_of_field rfl) (by decide), number,
    resolveEntries_of_unroll (by simp) rfl (unroll_prefixed (by decide))]
  rfl

theorem copy_above_agrees :
    rawEntries (fileTree copyText) none Overlay.default (FilePath.distinct [⟨"/a"⟩]) =
      .ok copyFields ∧
    copyFields.keys = [] ++ "B" :: ["N", "A"] ∧
    copyFields.get? "B" = some (.str (referenceTo "A")) ∧ "B" ∉ (∅ : Variables) ∧
    "A" ∈ copyFields.keys ∧
    SettledUntil ⟨∅, copyFields⟩ ["N", "A"] "A" ∧
    ∃ loaded final text, files (fileTree copyText) {} [⟨"/a"⟩] ⟨∅, []⟩ = .ok loaded final ∧
      final.vars["A"]? = some text ∧ final.vars["B"]? = some text := by
  have read : rawEntries (fileTree copyText) none Overlay.default (FilePath.distinct [⟨"/a"⟩]) =
      .ok copyFields := by decide +kernel
  have copied : copyFields.get? "B" = some (.str (referenceTo "A")) := by decide +kernel
  have absent : "B" ∉ (∅ : Variables) := by decide +kernel
  have outside : "A" ∉ (∅ : Variables) := by decide +kernel
  have defined : "A" ∈ copyFields.keys := by decide
  have settled : SettledUntil ⟨∅, copyFields⟩ ["N", "A"] "A" := by
    intro source _ site target other _ refers listed _ held
    have only : target.name = "N" := by simpa using listed
    have number : copyFields.get? "N" = some (.str "2") := rfl
    rw [only, number] at held
    cases held
    have plain : '$' ∉ "2".toList := by decide
    refine ⟨.of_plain _ plain (by decide +kernel), fun same => ?_⟩
    exact absurd (same ▸ refers) ((plain_of_no_dollar plain).not_refers target)
  have ran := Action.eq_ok_iff.mpr ⟨value_files_copyText, rfl⟩
  obtain ⟨text, other, here, there, _, same⟩ := copy_agrees_iff (fileTree copyText) {} ⟨∅, []⟩ _
    [⟨"/a"⟩] copyFields copyFields _ "A" "B" [] ["N", "A"] read rfl copied absent
    (.inl defined) ran rfl
  refine ⟨read, rfl, copied, absent, defined, settled, _, _, text, ran, here, ?_⟩
  rw [there, same outside (by decide) settled]

def numberSession : Session := ⟨Variables.ofList [("A", "1.0")], []⟩

theorem value_files_numberSession :
    (files (fileTree "B=${A}\n") {} [⟨"/a"⟩]).value numberSession =
      .ok [("B", .num (.int 1))] := by
  obtain ⟨_, _, content, entries, _, number⟩ := fileTree_reads
  have keys : Fields.keys [("B", .str "${A}")] = ["B"] := rfl
  have ends : unroll ⟨numberSession.vars, [("B", .str "${A}")]⟩ "${A}" = some "1.0" := by
    have plain : Plain "1.0".toList := plain_of_no_dollar (by decide)
    have whole := unroll_referenceTo_eq_lookup ⟨numberSession.vars, [("B", .str "${A}")]⟩ isName_a
    have found : Scope.lookup ⟨numberSession.vars, [("B", .str "${A}")]⟩ (referenceTo "A").toList
        "A" = .pending "1.0" := by decide
    rw [found] at whole
    exact whole.trans (plain.unroll _)
  rw [value_files_single content, entries, keys,
    resolveEntries_of_unroll (by decide) rfl ends, number]
  rfl

theorem copied_number_is_respelled :
    ¬ ∀ (tree : Tree) (settings : Settings) (session final : Session) (paths : List FilePath)
      (raw loaded : Fields) (name copy : String),
      rawEntries tree settings.encoding settings.overlay (FilePath.distinct paths) = .ok raw →
      raw.get? copy = some (.str (referenceTo name)) → name ≠ copy → copy ∉ session.vars →
      (name ∈ raw.keys ∨ name ∈ session.vars ∧ IsName name) →
      files tree settings paths session = .ok loaded final →
      final.vars[copy]? = final.vars[name]? := by
  intro agree
  have result := value_files_numberSession
  have ran := Action.eq_ok_iff.mpr ⟨result, rfl⟩
  have same := agree (fileTree "B=${A}\n") {} numberSession _ [⟨"/a"⟩] [("B", .str "${A}")] _
    "A" "B" (by decide +kernel) (by decide +kernel) (by decide) (by decide +kernel)
    (.inr ⟨by decide +kernel, isName_a⟩) ran
  rw [value_files] at result
  rw [vars_files, result] at same
  revert same
  decide +kernel

end LayeredEnv.Loading
