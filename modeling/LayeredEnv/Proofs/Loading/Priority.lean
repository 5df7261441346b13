import LayeredEnv.Proofs.Loading.Load

set_option autoImplicit false

namespace LayeredEnv

open Disk (FilePath Tree)

namespace Naming

theorem candidates_ordered (pattern : String) (environment : Option String) :
    (candidates pattern environment).Pairwise
      fun lower upper => lower.1.priority < upper.1.priority := by
  have optional {asked : Prop} [Decidable asked] (file : Role × String) :
      List.Sublist (if asked then [file] else []) [file] := by
    split <;> simp
  refine List.Pairwise.sublist
    (((((optional _).append (.refl _)).append (optional _)).append (optional _)).append
      (optional _)) ?_
  simp [Role.priority]

end Naming

namespace Loading

def CascadeFile.Below (lower upper : CascadeFile) : Prop :=
  lower.role.priority < upper.role.priority

theorem cascadeIn_ordered (tree : Tree) (directory : FilePath) (pattern : String)
    (environment : Option String) :
    (cascadeIn tree directory pattern environment).Pairwise CascadeFile.Below := by
  refine (Naming.candidates_ordered pattern environment).filterMap _ ?_
  rintro ⟨role, name⟩ ⟨role', name'⟩ below file kept file' kept'
  simp only [Option.ite_none_right_eq_some, Option.some.injEq] at kept kept'
  obtain ⟨_, rfl⟩ := kept
  obtain ⟨_, rfl⟩ := kept'
  exact below

/-- The same file is not in the plan under a lower role. -/
def LowestRole (plan : List CascadeFile) (file : CascadeFile) : Prop :=
  ∀ other ∈ plan, other.path.normalized = file.path.normalized →
    file.role.priority ≤ other.role.priority

instance (plan : List CascadeFile) (file : CascadeFile) : Decidable (LowestRole plan file) :=
  inferInstanceAs (Decidable (∀ other ∈ plan, _))

theorem lowestRole_head {file : CascadeFile} {rest : List CascadeFile}
    (below : ∀ other ∈ rest, file.Below other) : LowestRole (file :: rest) file := by
  intro other member _
  rcases List.mem_cons.mp member with rfl | later
  · exact Nat.le_refl _
  · exact Nat.le_of_lt (below other later)

theorem lowestRole_cons {file other : CascadeFile} {rest : List CascadeFile}
    (below : file.Below other) :
    LowestRole (file :: rest) other ↔
      file.path.normalized ≠ other.path.normalized ∧ LowestRole rest other := by
  constructor
  · intro lowest
    refine ⟨fun same => ?_, fun file member => lowest file (List.mem_cons_of_mem _ member)⟩
    exact Nat.not_lt.mpr (lowest file (by simp) same) below
  · rintro ⟨differ, lowest⟩ earlier member same
    rcases List.mem_cons.mp member with rfl | later
    · exact absurd same differ
    · exact lowest earlier later same

theorem distinctFrom_paths {plan : List CascadeFile} (ordered : plan.Pairwise CascadeFile.Below)
    (seen : List (Bool × List String)) :
    FilePath.distinctFrom seen (plan.map CascadeFile.path) =
      (plan.filter fun file => file.path.normalized ∉ seen ∧ LowestRole plan file).map
        CascadeFile.path := by
  induction plan generalizing seen with
  | nil => rfl
  | cons file rest ih =>
    obtain ⟨below, ordered⟩ := List.pairwise_cons.mp ordered
    have lowest := lowestRole_head below
    rw [List.map_cons, FilePath.distinctFrom]
    by_cases again : file.path.normalized ∈ seen
    next =>
      rw [if_pos again, ih ordered, List.filter_cons_of_neg (by simp [again])]
      congr 1
      apply List.filter_congr
      intro other member
      -- A file that has not been seen is not the one that is dropped here.
      have apart : other.path.normalized ∉ seen →
          file.path.normalized ≠ other.path.normalized := by
        intro fresh same
        exact fresh (same ▸ again)
      rw [decide_eq_decide, lowestRole_cons (below other member)]
      exact and_congr_right fun fresh => (and_iff_right (apart fresh)).symm
    next =>
      rw [if_neg again, ih ordered, List.filter_cons_of_pos (by simp [again, lowest]),
        List.map_cons]
      congr 2
      apply List.filter_congr
      intro other member
      rw [decide_eq_decide, lowestRole_cons (below other member), List.mem_cons, not_or]
      grind

theorem distinct_paths {plan : List CascadeFile} (ordered : plan.Pairwise CascadeFile.Below) :
    FilePath.distinct (plan.map CascadeFile.path) =
      (plan.filter (LowestRole plan)).map CascadeFile.path := by
  rw [FilePath.distinct, distinctFrom_paths ordered]
  simp

structure Topmost (tree : Tree) (encoding : Option String) (files : List CascadeFile) (key : String)
    (file : CascadeFile) : Prop where
  listed : file ∈ files
  defines : (valueIn? tree encoding key file.path).isSome
  highest : ∀ other ∈ files, (valueIn? tree encoding key other.path).isSome →
    other.role.priority ≤ file.role.priority

instance (tree : Tree) (encoding : Option String) (files : List CascadeFile) (key : String)
    (file : CascadeFile) : Decidable (Topmost tree encoding files key file) :=
  decidable_of_iff (file ∈ files ∧ (valueIn? tree encoding key file.path).isSome ∧
      ∀ other ∈ files, (valueIn? tree encoding key other.path).isSome →
        other.role.priority ≤ file.role.priority)
    ⟨fun parts => ⟨parts.1, parts.2.1, parts.2.2⟩,
      fun topmost => ⟨topmost.listed, topmost.defines, topmost.highest⟩⟩

variable {tree : Tree} {encoding : Option String} {plan files : List CascadeFile} {key : String}
variable {file top : CascadeFile}

theorem topmost_of_findSome? {value : Json} (ordered : files.Pairwise CascadeFile.Below)
    (found : (files.map CascadeFile.path).reverse.findSome? (valueIn? tree encoding key) =
      some value) :
    ∃ file, Topmost tree encoding files key file ∧
      valueIn? tree encoding key file.path = some value := by
  -- The search goes from the last file back, so every file that it has passed gives no value.
  rw [← List.map_reverse, List.findSome?_map, List.findSome?_eq_some_iff] at found
  obtain ⟨after, file, before, split, here, later⟩ := found
  rw [List.reverse_eq_iff, List.reverse_append, List.reverse_cons] at split
  subst split
  refine ⟨file, ⟨by simp, Option.isSome_of_eq_some here, ?_⟩, here⟩
  intro other member defined
  simp only [List.append_assoc, List.mem_append, List.mem_reverse, List.mem_singleton] at member
  rcases member with earlier | rfl | passed
  · have below := (List.pairwise_append.mp (List.pairwise_append.mp ordered).1).2.2
    exact Nat.le_of_lt (below other (by simpa using earlier) file (by simp))
  · exact Nat.le_refl _
  · simp only [Function.comp] at later
    rw [later other passed] at defined
    cases defined

theorem eq_of_priority (ordered : plan.Pairwise CascadeFile.Below) (left : file ∈ plan)
    (right : top ∈ plan) (same : file.role.priority = top.role.priority) : file = top := by
  induction plan with
  | nil => cases left
  | cons first rest ih =>
    obtain ⟨below, ordered⟩ := List.pairwise_cons.mp ordered
    rcases List.mem_cons.mp left with rfl | left'
    · rcases List.mem_cons.mp right with rfl | right'
      · rfl
      · exact absurd same (Nat.ne_of_lt (below top right'))
    · rcases List.mem_cons.mp right with rfl | right'
      · exact absurd same.symm (Nat.ne_of_lt (below file left'))
      · exact ih ordered left' right'

theorem Topmost.eq_iff (ordered : plan.Pairwise CascadeFile.Below)
    (read : Topmost tree encoding (plan.filter (LowestRole plan)) key file)
    (highest : Topmost tree encoding plan key top) : top = file ↔ LowestRole plan top := by
  obtain ⟨listed, lowest⟩ := List.mem_filter.mp read.listed
  constructor
  · rintro rfl
    exact of_decide_eq_true lowest
  · intro counts
    -- Each of the two files is the highest of a list in which the other one stands.
    have here : top ∈ plan.filter (LowestRole plan) :=
      List.mem_filter.mpr ⟨highest.listed, decide_eq_true counts⟩
    have up := read.highest top here highest.defines
    have down := highest.highest file listed read.defines
    exact eq_of_priority ordered highest.listed listed (by omega)

/-- The raw value of a key among the entries of some files, from which the key is resolved in its
turn. -/
def ResolvedFrom (tree : Tree) (settings : Settings) (paths : List FilePath) (vars : Variables)
    (loaded : Fields) (key text : String) : Prop :=
  ∃ raw earlier later turn value,
    rawEntries tree settings.encoding settings.overlay paths = .ok raw ∧
    raw.get? key = some (.str text) ∧ raw.keys = earlier ++ key :: later ∧
    resolveEntries vars earlier raw = .ok turn ∧ Value.resolve ⟨vars, turn⟩ key text = .ok value ∧
    loaded.get? key = some value

theorem resolvedFrom_of_mem {settings : Settings} {paths : List FilePath} {vars : Variables}
    {loaded : Fields} (member : key ∈ loaded.keys) (absent : key ∉ vars)
    (found : resolvedEntries tree settings vars paths = .ok loaded) :
    ∃ text, paths.reverse.findSome? (valueIn? tree settings.encoding key) = some (.str text) ∧
      ResolvedFrom tree settings paths vars loaded key text := by
  obtain ⟨raw, read, resolved⟩ := bind_eq_ok_iff.mp found
  have entries := mapError_eq_ok_iff.mp resolved
  rw [resolveEntries_keys (fun _ member => member) entries] at member
  obtain ⟨text, field⟩ := (rawEntries_raw read).text member
  obtain ⟨earlier, later, turn, value, order, reached, resolves, here⟩ :=
    resolveEntries_turn (rawEntries_raw read).distinct member absent entries
  rw [rawText_of_field field] at resolves
  refine ⟨text, ?_, raw, earlier, later, turn, value, read, field, order, reached, resolves, here⟩
  rw [← rawEntries_get? read, field]

/-- A cascade resolves a key from the file of the highest role that gives it a value, where a file
that is planned under several roles counts with the lowest of them. -/
theorem resolved_from_topmost (tree : Tree) (settings : Settings) (session final : Session)
    (loaded : Fields) (plan : List CascadeFile) (key : String)
    (implicit : settings.files = none) (kept : settings.purge = false)
    (listed : (planned tree settings).value session = .ok plan)
    (ran : cascade tree settings session = .ok loaded final)
    (member : key ∈ loaded.keys) (absent : key ∉ session.vars) :
    ∃ file text,
      Topmost tree settings.encoding (plan.filter (LowestRole plan)) key file ∧
      valueIn? tree settings.encoding key file.path = some (.str text) ∧
      ResolvedFrom tree settings (FilePath.distinct (plan.map CascadeFile.path)) session.vars
        loaded key text ∧
      ∀ top, Topmost tree settings.encoding plan key top → (top = file ↔ LowestRole plan top) := by
  have ordered : plan.Pairwise CascadeFile.Below := by
    rw [value_planned] at listed
    cases listed
    exact cascadeIn_ordered _ _ _ _
  have staged : session.vars = (purged tree settings session.vars).vars := by
    rw [purged_of_unread]
    intro asked
    rw [kept] at asked
    cases asked
  have resolved := resolvedEntries_of_planned implicit staged listed ran
  obtain ⟨text, last, made⟩ := resolvedFrom_of_mem member absent resolved
  rw [distinct_paths ordered] at last
  obtain ⟨file, topmost, value⟩ := topmost_of_findSome? (ordered.filter _) last
  exact ⟨file, text, topmost, value, made, fun top highest => topmost.eq_iff ordered highest⟩

def defaultsTree : Tree where
  nodes := [(["w"], .directory), (["w", ".env.defaults"], .file "A=low\n".toUTF8.toList),
    (["w", ".env"], .file "A=base\nB=base\n".toUTF8.toList),
    (["w", ".env.local"], .file "B=local\n".toUTF8.toList)]
  current := ⟨"/w"⟩

def defaultsSettings : Settings := { environment := some "defaults" }

def defaultsPlan : List CascadeFile :=
  [⟨.defaults, ⟨"/w/.env.defaults"⟩⟩, ⟨.base, ⟨"/w/.env"⟩⟩, ⟨.localOverride, ⟨"/w/.env.local"⟩⟩,
    ⟨.environment, ⟨"/w/.env.defaults"⟩⟩]

theorem defaultsTree_reads :
    cascadeIn defaultsTree ⟨"/w"⟩ Naming.defaultPattern (some "defaults") = defaultsPlan ∧
    entriesOf defaultsTree none ⟨"/w/.env.defaults"⟩ = .ok [("A", .str "low")] ∧
    entriesOf defaultsTree none ⟨"/w/.env"⟩ = .ok [("A", .str "base"), ("B", .str "base")] ∧
    entriesOf defaultsTree none ⟨"/w/.env.local"⟩ = .ok [("B", .str "local")] := by
  decide +kernel

theorem planned_defaultsTree :
    (planned defaultsTree defaultsSettings).value ⟨∅, []⟩ = .ok defaultsPlan := by
  rw [value_planned]
  exact congrArg Except.ok defaultsTree_reads.1

theorem rawEntries_defaultsTree :
    rawEntries defaultsTree none Overlay.default
      (FilePath.distinct (defaultsPlan.map CascadeFile.path)) =
        .ok [("A", .str "base"), ("B", .str "local")] := by
  obtain ⟨_, lowest, base, upper⟩ := defaultsTree_reads
  have apart : FilePath.distinct (defaultsPlan.map CascadeFile.path) =
      [⟨"/w/.env.defaults"⟩, ⟨"/w/.env"⟩, ⟨"/w/.env.local"⟩] := by decide
  simp only [apart, rawEntries, List.foldlM_cons, lowest, base, upper]
  rfl

theorem value_cascade_defaultsTree :
    (cascade defaultsTree defaultsSettings).value ⟨∅, []⟩ =
      .ok [("A", .str "base"), ("B", .str "local")] := by
  have selected : selection defaultsTree defaultsSettings ∅ =
      .ok (defaultsPlan.map CascadeFile.path) :=
    (selection_of_planned rfl planned_defaultsTree).trans rfl
  have staged : (purged defaultsTree defaultsSettings ∅).vars = ∅ := rfl
  rw [value_cascade_of_read staged selected rawEntries_defaultsTree]
  simp only [Fields.keys, List.map_cons, List.map_nil]
  rw [resolveEntries_of_plain "base" (by simp) (rawText_of_field rfl) (by decide),
    resolveEntries_of_plain "local" (by simp) (rawText_of_field rfl) (by decide)]
  rfl

theorem local_file_decides :
    (planned defaultsTree defaultsSettings).value ⟨∅, []⟩ = .ok defaultsPlan ∧
    ∃ loaded final, cascade defaultsTree defaultsSettings ⟨∅, []⟩ = .ok loaded final ∧
      "B" ∈ loaded.keys ∧ "B" ∉ (∅ : Variables) ∧
      ResolvedFrom defaultsTree defaultsSettings
        (FilePath.distinct (defaultsPlan.map CascadeFile.path)) ∅ loaded "B" "local" := by
  obtain ⟨_, lowest, _, upper⟩ := defaultsTree_reads
  have ran := Action.eq_ok_iff.mpr ⟨value_cascade_defaultsTree, rfl⟩
  have here : valueIn? defaultsTree none "B" ⟨"/w/.env.local"⟩ = some (.str "local") := by
    rw [valueIn?, upper]
    rfl
  have highest : Topmost defaultsTree none defaultsPlan "B"
      ⟨.localOverride, ⟨"/w/.env.local"⟩⟩ := by
    refine ⟨by simp [defaultsPlan], Option.isSome_of_eq_some here, ?_⟩
    simp [defaultsPlan, valueIn?, lowest, Except.toOption, Fields.get?, Naming.Role.priority]
  have counts : LowestRole defaultsPlan ⟨.localOverride, ⟨"/w/.env.local"⟩⟩ := by decide
  have absent : "B" ∉ (∅ : Variables) := Std.ExtTreeMap.not_mem_empty
  obtain ⟨file, text, _, value, made, same⟩ := resolved_from_topmost defaultsTree defaultsSettings
    ⟨∅, []⟩ _ _ _ "B" rfl rfl planned_defaultsTree ran (by decide) absent
  cases (same _ highest).mpr counts
  cases here.symm.trans value
  exact ⟨planned_defaultsTree, _, _, ran, by decide, absent, made⟩

theorem environment_named_defaults_is_overridden :
    ¬ ∀ (tree : Tree) (settings : Settings) (session final : Session) (loaded : Fields)
      (plan : List CascadeFile) (key text : String) (top : CascadeFile),
      settings.files = none → settings.purge = false →
      (planned tree settings).value session = .ok plan →
      cascade tree settings session = .ok loaded final →
      key ∈ loaded.keys → key ∉ session.vars →
      Topmost tree settings.encoding plan key top →
      valueIn? tree settings.encoding key top.path = some (.str text) →
      ResolvedFrom tree settings (FilePath.distinct (plan.map CascadeFile.path)) session.vars
        loaded key text := by
  intro decides
  have ran := Action.eq_ok_iff.mpr ⟨value_cascade_defaultsTree, rfl⟩
  have here : valueIn? defaultsTree none "A" ⟨"/w/.env.defaults"⟩ = some (.str "low") := by
    rw [valueIn?, defaultsTree_reads.2.1]
    rfl
  have above : ∀ other ∈ defaultsPlan, other.role.priority ≤ Naming.Role.environment.priority := by
    decide
  have highest : Topmost defaultsTree none defaultsPlan "A" ⟨.environment, ⟨"/w/.env.defaults"⟩⟩ :=
    ⟨by simp [defaultsPlan], Option.isSome_of_eq_some here, fun other member _ => above other member⟩
  obtain ⟨raw, _, _, _, _, read, text, _⟩ := decides defaultsTree defaultsSettings ⟨∅, []⟩ _ _ _ "A"
    "low" _ rfl rfl planned_defaultsTree ran (by decide) Std.ExtTreeMap.not_mem_empty highest here
  cases rawEntries_defaultsTree.symm.trans read
  exact absurd text (by decide)

end Loading
end LayeredEnv
