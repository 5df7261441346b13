import LayeredEnv.Proofs.Loading.Resolution
import LayeredEnv.Proofs.Value.Reach

set_option autoImplicit false

namespace LayeredEnv.Loading

open Value

/-- A raw text that, once resolved, stands for itself: the expanded text survives being typed, holds
no reference, and has not become empty. -/
structure Lasting (scope : Scope) (raw : String) : Prop where
  kept : ∀ text, unroll scope raw = some text → (typed text).render = text
  plain : ∀ text, unroll scope raw = some text → Plain text.toList
  filled : ∀ text, unroll scope raw = some text → text = "" → raw = ""

theorem Lasting.of_plain (scope : Scope) {raw : String} (plain : '$' ∉ raw.toList)
    (kept : (typed raw).render = raw) : Lasting scope raw := by
  have text := plain_of_no_dollar plain
  have ends : unroll scope raw = some raw := text.unroll scope
  have only {other : String} (found : unroll scope raw = some other) : raw = other :=
    Option.some.inj (ends.symm.trans found)
  constructor
  · exact fun _ found => only found ▸ kept
  · exact fun _ found => only found ▸ text
  · exact fun _ found empty => (only found).trans empty

/-- While one entry is expanded, every other entry that a reference comes to is lasting, and the
text around the reference is the raw text of that entry only where it is expanded as its value. -/
def Settled (scope : Scope) : Prop :=
  ∀ key raw site target other, key ∉ scope.vars → scope.fields.get? key = some (.str raw) →
    Leads scope ⟨some key, raw.toList⟩ site → Refers site.text target →
    target.name ∉ scope.vars → target.name ≠ key →
    scope.fields.get? target.name = some (.str other) →
    Lasting scope other ∧ (site.text = other.toList → site.owner = some target.name)

structure Partway (scope : Scope) (done : List String) (entries : Fields) : Prop where
  pending : ∀ key, key ∉ done ∨ key ∈ scope.vars → entries.get? key = scope.fields.get? key
  resolved : ∀ key ∈ done, key ∉ scope.vars → ∃ raw text,
    scope.fields.get? key = some (.str raw) ∧ unroll scope raw = some text ∧
      entries.get? key = some (typed text)

structure PartwayAmong (scope : Scope) (noted : String → Prop) (done : List String)
    (entries : Fields) : Prop where
  pending : ∀ key, key ∉ done ∨ key ∈ scope.vars → entries.get? key = scope.fields.get? key
  resolved : ∀ key ∈ done, noted key → key ∉ scope.vars → ∃ raw text,
    scope.fields.get? key = some (.str raw) ∧ unroll scope raw = some text ∧
      entries.get? key = some (typed text)

def RefersAlong (scope : Scope) (start : Site) (name : String) : Prop :=
  ∃ site target, Leads scope start site ∧ Refers site.text target ∧ target.name = name

def SettledAlong (scope : Scope) (names : List String) (start : Site) : Prop :=
  ∀ site target other, Leads scope start site → Refers site.text target →
    target.name ∈ names → target.name ∉ scope.vars →
    scope.fields.get? target.name = some (.str other) →
    Lasting scope other ∧ (site.text = other.toList → site.owner = some target.name)

variable {scope : Scope} {done : List String} {entries : Fields} {key raw : String}
variable {start : Site} {noted : String → Prop}

theorem Settled.along (settled : Settled scope) (absent : key ∉ scope.vars) (undone : key ∉ done)
    (field : scope.fields.get? key = some (.str raw)) :
    SettledAlong scope done ⟨some key, raw.toList⟩ := by
  intro site target other leads refers listed outside found
  have differ : target.name ≠ key := fun same => undone (same ▸ listed)
  exact settled key raw site target other absent field leads refers outside differ found

theorem Partway.among (partway : Partway scope done entries) (noted : String → Prop) :
    PartwayAmong scope noted done entries :=
  ⟨partway.pending, fun key listed _ => partway.resolved key listed⟩

theorem PartwayAmong.all (partway : PartwayAmong scope (fun _ => True) done entries) :
    Partway scope done entries :=
  ⟨partway.pending, fun key listed => partway.resolved key listed trivial⟩

theorem Lasting.answer {now : Scope} {current : List Char} {target : Reference} {text : String}
    (lasting : Lasting scope raw) (absent : target.name ∉ scope.vars) (vars : now.vars = scope.vars)
    (before : scope.fields.get? target.name = some (.str raw)) (ends : unroll scope raw = some text)
    (after : now.fields.get? target.name = some (typed text)) (filled : raw ≠ "")
    (apart : current ≠ raw.toList) (referring : current ≠ text.toList) :
    (scope.demand current target).answer (unrollRest scope) =
      (now.demand current target).answer (unrollRest now) := by
  have kept := lasting.kept text ends
  have remains : text ≠ "" := fun empty => filled (lasting.filled text ends empty)
  rw [scope.demand_of_filled absent before filled apart,
    now.demand_of_filled (vars ▸ absent) after (by rwa [kept]) (by rwa [kept]), kept]
  have same := (lasting.plain text ends).unrollRest now text.toList
  obtain ⟨chars, found, rfl⟩ := Option.map_eq_some_iff.mp ends
  rw [Demand.answer, Demand.answer, same, String.toList_ofList]
  exact found

/-- The sites that come up while a key is expanded: no entry that is resolved is expanded again. -/
def Visited (scope : Scope) (done : List String) (start site : Site) : Prop :=
  Leads scope start site ∧ ∀ name ∈ site.owner, name ∈ done → name ∈ scope.vars

theorem SettledAlong.agree (settled : SettledAlong scope done start)
    (partway : PartwayAmong scope (RefersAlong scope start) done entries) (site : Site)
    (visited : Visited scope done start site) :
    AgreeAt scope ⟨scope.vars, entries⟩ (Visited scope done start) site := by
  intro target refers
  -- Only an entry that is resolved already and is no variable reads otherwise than before.
  by_cases resolved : target.name ∈ done ∧ target.name ∉ scope.vars
  next =>
    have mentioned : RefersAlong scope start target.name := ⟨site, target, visited.1, refers, rfl⟩
    obtain ⟨other, text, before, ends, after⟩ :=
      partway.resolved _ resolved.1 mentioned resolved.2
    obtain ⟨lasting, own⟩ :=
      settled site target other visited.1 refers resolved.1 resolved.2 before
    by_cases empty : other = ""
    next =>
      -- An empty text counts as none, before and after, and the fallback belongs to no entry.
      subst empty
      have gone : text = "" := Option.some.inj (ends.symm.trans (unroll_empty scope))
      subst gone
      have fallback := scope.demand_of_empty site.text resolved.2 before rfl
      have fallback' := Scope.demand_of_empty ⟨scope.vars, entries⟩ site.text resolved.2 after
        (lasting.kept "" ends)
      refine .inl ⟨fallback.trans fallback'.symm, fun inner demanded => ?_⟩
      refine ⟨visited.1.step refers demanded, fun name owned _ => ?_⟩
      rw [fallback] at demanded
      split at demanded <;> cases demanded
      cases owned
    next =>
      right
      refine lasting.answer resolved.2 rfl before ends after empty ?_ ?_
      · intro same
        exact resolved.2 (visited.2 target.name (own same) resolved.1)
      · intro same
        exact (lasting.plain text ends).not_refers target (same ▸ refers)
  next =>
    have unchanged : entries.get? target.name = scope.fields.get? target.name :=
      partway.pending _ ((not_and_or.mp resolved).imp_right Classical.not_not.mp)
    have same : scope.demand site.text target =
        Scope.demand ⟨scope.vars, entries⟩ site.text target :=
      Scope.demand_congr (by rfl) unchanged.symm _
    refine .inl ⟨same, fun inner demanded => ?_⟩
    refine ⟨visited.1.step refers demanded, fun name owned finished => ?_⟩
    obtain ⟨rfl, _⟩ := Scope.demand_owner demanded owned
    exact Classical.not_not.mp fun outside => resolved ⟨finished, outside⟩

theorem SettledAlong.unroll_eq (settled : SettledAlong scope done start)
    (partway : PartwayAmong scope (RefersAlong scope start) done entries)
    (leads : Leads scope start ⟨some key, raw.toList⟩) (undone : key ∉ done) :
    unroll ⟨scope.vars, entries⟩ raw = unroll scope raw := by
  have here : Visited scope done start ⟨some key, raw.toList⟩ := by
    refine ⟨leads, fun name owned finished => ?_⟩
    cases owned
    exact absurd finished undone
  have same := unrollRest_congr (settled.agree partway) here
  simp only [unroll, same]

theorem PartwayAmong.skip (partway : PartwayAmong scope noted done entries)
    (present : key ∈ scope.vars) : PartwayAmong scope noted (done ++ [key]) entries := by
  constructor
  · intro other free
    refine partway.pending other (free.imp_left fun unlisted listed => unlisted ?_)
    exact List.mem_append_left _ listed
  · intro other listed named absent
    rcases List.mem_append.mp listed with before | now
    · exact partway.resolved other before named absent
    · rw [List.mem_singleton] at now
      exact absurd (now ▸ present) absent

theorem PartwayAmong.set (partway : PartwayAmong scope noted done entries) {value : Json}
    (absent : key ∉ scope.vars)
    (known : noted key → ∃ raw text, scope.fields.get? key = some (.str raw) ∧
      unroll scope raw = some text ∧ value = typed text) :
    PartwayAmong scope noted (done ++ [key]) (entries.set key value) := by
  constructor
  · intro other free
    have differ : other ≠ key := by
      rintro rfl
      rcases free with unlisted | present
      · exact unlisted (by simp)
      · exact absent present
    rw [Fields.get?_set, if_neg differ]
    refine partway.pending other (free.imp_left fun unlisted listed => unlisted ?_)
    exact List.mem_append_left _ listed
  · intro other listed named outside
    by_cases same : other = key
    next =>
      subst same
      obtain ⟨raw, text, field, ends, rfl⟩ := known named
      exact ⟨raw, text, field, ends, by simp⟩
    next =>
      rw [Fields.get?_set, if_neg same]
      rcases List.mem_append.mp listed with before | now
      · exact partway.resolved other before named outside
      · exact absurd (List.mem_singleton.mp now) same

def ReadsRaw (scope : Scope) (noted : String → Prop) (names : List String) : Prop :=
  ∀ done entries key raw, PartwayAmong scope noted done entries → done ⊆ names → key ∈ names →
    key ∉ done → key ∉ scope.vars → scope.fields.get? key = some (.str raw) → noted key →
    unroll ⟨scope.vars, entries⟩ raw = unroll scope raw

theorem ReadsRaw.outcome {keys names : List String} (reads : ReadsRaw scope noted names)
    (partway : PartwayAmong scope noted done entries) (apart : (done ++ keys).Nodup)
    (inside : done ++ keys ⊆ names)
    (texts : ∀ key ∈ keys, ∃ raw, scope.fields.get? key = some (.str raw)) :
    (∀ resolved, resolveEntries scope.vars keys entries = .ok resolved →
      PartwayAmong scope noted (done ++ keys) resolved) ∧
    (∀ chain, resolveEntries scope.vars keys entries = .error chain →
      ∃ key ∈ keys, key ∉ scope.vars ∧ (noted key → ∃ raw,
        scope.fields.get? key = some (.str raw) ∧ unroll scope raw = none)) := by
  induction keys generalizing done entries with
  | nil =>
    constructor
    · intro resolved found
      cases found
      simpa using partway
    · intro chain failed
      cases failed
  | cons key rest ih =>
    have undone : key ∉ done := fun member =>
      (List.nodup_append.mp apart).2.2 key member key (by simp) rfl
    have before : done ⊆ names := fun name member => inside (List.mem_append_left _ member)
    have listed : key ∈ names := inside (by simp)
    rw [List.append_cons] at apart inside ⊢
    have later : ∀ key ∈ rest, ∃ raw, scope.fields.get? key = some (.str raw) :=
      fun key member => texts key (List.mem_cons_of_mem _ member)
    by_cases present : key ∈ scope.vars
    next =>
      obtain ⟨succeeds, fails⟩ := ih (partway.skip present) apart inside later
      rw [resolveEntries_of_mem present]
      refine ⟨succeeds, fun chain failed => ?_⟩
      exact (fails chain failed).imp fun _ found => found.imp_left (List.mem_cons_of_mem key)
    next =>
      obtain ⟨raw, field⟩ := texts key (by simp)
      have held : entries.get? key = some (.str raw) :=
        (partway.pending key (.inl undone)).trans field
      -- Whether it ends or not, its expansion is that among the raw texts.
      have same := reads done entries key raw partway before listed undone present field
      cases ends : unroll ⟨scope.vars, entries⟩ raw with
      | none =>
        refine ⟨fun resolved found => ?_, fun _ _ => ⟨key, by simp, present, fun named => ?_⟩⟩
        · obtain ⟨text, some, _⟩ := resolveEntries_cons_eq_ok present held found
          rw [ends] at some
          cases some
        · exact ⟨raw, field, (same named).symm.trans ends⟩
      | some text =>
        have step := partway.set present fun named =>
          ⟨raw, text, field, (same named).symm.trans ends, rfl⟩
        obtain ⟨succeeds, fails⟩ := ih step apart inside later
        rw [resolveEntries_of_unroll present held ends]
        refine ⟨succeeds, fun chain failed => ?_⟩
        exact (fails chain failed).imp fun _ found => found.imp_left (List.mem_cons_of_mem key)

theorem Settled.readsRaw (settled : Settled scope) (names : List String) :
    ReadsRaw scope (fun _ => True) names := by
  intro done entries key raw partway _ _ undone absent field _
  have along := settled.along absent undone field
  exact along.unroll_eq (partway.all.among _) (.refl _) undone

theorem Settled.outcome {keys : List String} (settled : Settled scope)
    (partway : Partway scope done entries) (apart : (done ++ keys).Nodup)
    (texts : ∀ key ∈ keys, ∃ raw, scope.fields.get? key = some (.str raw)) :
    (∀ resolved, resolveEntries scope.vars keys entries = .ok resolved →
      Partway scope (done ++ keys) resolved) ∧
    (∀ chain, resolveEntries scope.vars keys entries = .error chain →
      ∃ key ∈ keys, key ∉ scope.vars ∧ ∃ raw, scope.fields.get? key = some (.str raw) ∧
        unroll scope raw = none) := by
  obtain ⟨succeeds, fails⟩ :=
    (settled.readsRaw (done ++ keys)).outcome (partway.among _) apart (List.Subset.refl _) texts
  refine ⟨fun resolved found => (succeeds resolved found).all, fun chain failed => ?_⟩
  obtain ⟨key, member, absent, endless⟩ := fails chain failed
  exact ⟨key, member, absent, endless trivial⟩

theorem SettledAlong.leads {names : List String} (settled : SettledAlong scope names start)
    (listed : key ∈ names) (absent : key ∉ scope.vars)
    (field : scope.fields.get? key = some (.str raw)) (filled : raw ≠ "")
    (mentioned : RefersAlong scope start key) : Leads scope start ⟨some key, raw.toList⟩ := by
  obtain ⟨site, target, leads, refers, rfl⟩ := mentioned
  -- Inside the raw text itself the reference counts as unset, but then this is its own site.
  by_cases same : site.text = raw.toList
  next =>
    have own := (settled site target raw leads refers listed absent field).2 same
    cases site
    subst own same
    exact leads
  next => exact leads.step refers (scope.demand_of_text absent field filled same)

theorem SettledAlong.readsRaw {names : List String} (settled : SettledAlong scope names start) :
    ReadsRaw scope (RefersAlong scope start) names := by
  intro done entries key raw partway before listed undone absent field mentioned
  have earlier : SettledAlong scope done start := fun site target other leads refers member =>
    settled site target other leads refers (before member)
  by_cases empty : raw = ""
  next => rw [empty, unroll_empty, unroll_empty]
  next =>
    exact earlier.unroll_eq partway (settled.leads listed absent field empty mentioned) undone

theorem Partway.unique {other : List String} {left right : Fields}
    (one : Partway scope done left) (two : Partway scope other right)
    (same : ∀ key, key ∈ done ↔ key ∈ other) (key : String) : left.get? key = right.get? key := by
  by_cases resolved : key ∈ done ∧ key ∉ scope.vars
  next =>
    obtain ⟨raw, text, field, ends, here⟩ := one.resolved key resolved.1 resolved.2
    obtain ⟨raw', text', field', ends', there⟩ :=
      two.resolved key ((same key).mp resolved.1) resolved.2
    rw [field] at field'
    cases field'
    rw [ends] at ends'
    cases ends'
    rw [here, there]
  next =>
    have free := (not_and_or.mp resolved).imp_right Classical.not_not.mp
    rw [one.pending key free, two.pending key (free.imp_left (mt (same key).mpr))]

end LayeredEnv.Loading
