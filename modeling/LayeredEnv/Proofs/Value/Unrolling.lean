import LayeredEnv.Proofs.Outcome
import LayeredEnv.Proofs.Value.Site
import Mathlib.Data.Nat.Find

set_option autoImplicit false

namespace LayeredEnv.Value

variable {scope : Scope} {stack : List String} {current text rest : List Char} {target : Reference}

/-- One step of an expansion that goes on as `next`. It does what `expandRest` does, but without a
stack: nothing stops it when a name comes up again. -/
def unrollStep (scope : Scope) (next : List Char → List Char → Option (List Char))
    (current text : List Char) : Option (List Char) :=
  match Piece.next? text with
  | none => some []
  | some (.plain c, rest) => (c :: ·) <$> next current rest
  | some (.escaped source, rest) => (source ++ ·) <$> next current rest
  | some (.reference target, rest) =>
    (match scope.lookup current target.name with
      | .verbatim value => some value.toList
      | .pending value => next value.toList value.toList
      | .unset =>
        if target.fallback.head? = some '$' then next target.fallback target.fallback
        else some target.fallback) >>= fun value => (value ++ ·) <$> next current rest

def unrollWithin (scope : Scope) : Nat → List Char → List Char → Option (List Char)
  | 0, _, _ => none
  | depth + 1, current, text => unrollStep scope (unrollWithin scope depth) current text

open Classical in
/-- The expansion of the rest of a text `current` without a stack. It is the least solution of
`unrollRest_eq`, so that `none` means that the expansion does not end. -/
noncomputable def unrollRest (scope : Scope) (current text : List Char) : Option (List Char) :=
  if ends : ∃ value depth, unrollWithin scope depth current text = some value then
    some ends.choose
  else none

noncomputable def unroll (scope : Scope) (text : String) : Option String :=
  (unrollRest scope text.toList text.toList).map String.ofList

inductive Unrolls (scope : Scope) : Nat → List Char → List Char → List Char → Prop
  | done {depth : Nat} {current text : List Char} (last : Piece.next? text = none) :
    Unrolls scope depth current text []
  | plain {depth : Nat} {current text rest tail : List Char} {c : Char}
    (first : Piece.next? text = some (.plain c, rest))
    (later : Unrolls scope depth current rest tail) :
    Unrolls scope (depth + 1) current text (c :: tail)
  | escaped {depth : Nat} {current text rest source tail : List Char}
    (first : Piece.next? text = some (.escaped source, rest))
    (later : Unrolls scope depth current rest tail) :
    Unrolls scope (depth + 1) current text (source ++ tail)
  | given {depth : Nat} {current text rest value tail : List Char} {target : Reference}
    (first : Piece.next? text = some (.reference target, rest))
    (demanded : scope.demand current target = .given value)
    (later : Unrolls scope depth current rest tail) :
    Unrolls scope (depth + 1) current text (value ++ tail)
  | site {depth : Nat} {current text rest value tail : List Char} {target : Reference} {site : Site}
    (first : Piece.next? text = some (.reference target, rest))
    (demanded : scope.demand current target = .site site)
    (inner : Unrolls scope depth site.text site.text value)
    (later : Unrolls scope depth current rest tail) :
    Unrolls scope (depth + 1) current text (value ++ tail)

def Demand.answer (expansion : List Char → List Char → Option (List Char)) :
    Demand → Option (List Char)
  | .given value => some value
  | .site inner => expansion inner.text inner.text

theorem answer_demand (expansion : List Char → List Char → Option (List Char)) :
    (scope.demand current target).answer expansion =
      match scope.lookup current target.name with
      | .verbatim value => some value.toList
      | .pending value => expansion value.toList value.toList
      | .unset =>
        if target.fallback.head? = some '$' then expansion target.fallback target.fallback
        else some target.fallback := by
  rw [Scope.demand]
  cases scope.lookup current target.name with
  | verbatim value => simp [Demand.answer]
  | pending value => simp [Demand.answer]
  | unset => by_cases nested : target.fallback.head? = some '$' <;> simp [nested, Demand.answer]

theorem Unrolls.mono {depth more : Nat} {value : List Char}
    (unrolls : Unrolls scope depth current text value) (deeper : depth ≤ more) :
    Unrolls scope more current text value := by
  induction unrolls generalizing more with
  | done last => exact .done last
  | plain first _ ih =>
    obtain ⟨more, rfl⟩ : ∃ less, more = less + 1 := ⟨more - 1, by omega⟩
    exact .plain first (ih (by omega))
  | escaped first _ ih =>
    obtain ⟨more, rfl⟩ : ∃ less, more = less + 1 := ⟨more - 1, by omega⟩
    exact .escaped first (ih (by omega))
  | given first demanded _ ih =>
    obtain ⟨more, rfl⟩ : ∃ less, more = less + 1 := ⟨more - 1, by omega⟩
    exact .given first demanded (ih (by omega))
  | site first demanded _ _ inner later =>
    obtain ⟨more, rfl⟩ : ∃ less, more = less + 1 := ⟨more - 1, by omega⟩
    exact .site first demanded (inner (by omega)) (later (by omega))

theorem unrollStep_reference {next : List Char → List Char → Option (List Char)}
    (first : Piece.next? text = some (.reference target, rest)) :
    unrollStep scope next current text =
      ((scope.demand current target).answer next >>= fun value =>
        (value ++ ·) <$> next current rest) := by
  rw [unrollStep, first, answer_demand]

theorem unrollStep_of_unrolls {depth : Nat} {value : List Char}
    {next : List Char → List Char → Option (List Char)}
    (complete : ∀ less < depth, ∀ current text value,
      Unrolls scope less current text value → next current text = some value)
    (unrolls : Unrolls scope depth current text value) :
    unrollStep scope next current text = some value := by
  cases unrolls with
  | done last => rw [unrollStep, last]
  | plain first later =>
    rw [unrollStep, first]
    simp [complete _ (Nat.lt_succ_self _) _ _ _ later]
  | escaped first later =>
    rw [unrollStep, first]
    simp [complete _ (Nat.lt_succ_self _) _ _ _ later]
  | given first demanded later =>
    simp [unrollStep_reference first, demanded, Demand.answer,
      complete _ (Nat.lt_succ_self _) _ _ _ later]
  | site first demanded inner later =>
    simp [unrollStep_reference first, demanded, Demand.answer,
      complete _ (Nat.lt_succ_self _) _ _ _ inner, complete _ (Nat.lt_succ_self _) _ _ _ later]

theorem unrolls_of_unrollStep {value : List Char}
    {next : List Char → List Char → Option (List Char)}
    (sound : ∀ current text value, next current text = some value →
      ∃ depth, Unrolls scope depth current text value)
    (found : unrollStep scope next current text = some value) :
    ∃ depth, Unrolls scope depth current text value := by
  match first : Piece.next? text with
  | none =>
    simp only [unrollStep, first, Option.some.injEq] at found
    subst found
    exact ⟨0, .done first⟩
  | some (.plain c, rest) =>
    simp only [unrollStep, first, Option.map_eq_map, Option.map_eq_some_iff] at found
    obtain ⟨tail, later, rfl⟩ := found
    obtain ⟨depth, later⟩ := sound _ _ _ later
    exact ⟨_, .plain first later⟩
  | some (.escaped source, rest) =>
    simp only [unrollStep, first, Option.map_eq_map, Option.map_eq_some_iff] at found
    obtain ⟨tail, later, rfl⟩ := found
    obtain ⟨depth, later⟩ := sound _ _ _ later
    exact ⟨_, .escaped first later⟩
  | some (.reference target, rest) =>
    simp only [unrollStep_reference first, Option.bind_eq_bind, Option.bind_eq_some_iff,
      Option.map_eq_map, Option.map_eq_some_iff] at found
    obtain ⟨value, inner, tail, later, rfl⟩ := found
    obtain ⟨depth, later⟩ := sound _ _ _ later
    match demanded : scope.demand current target with
    | .given given =>
      simp only [demanded, Demand.answer, Option.some.injEq] at inner
      subst inner
      exact ⟨_, .given first demanded later⟩
    | .site site =>
      rw [demanded] at inner
      obtain ⟨more, inner⟩ := sound _ _ _ inner
      exact ⟨_, .site first demanded (inner.mono (Nat.le_max_right depth more))
        (later.mono (Nat.le_max_left depth more))⟩

theorem unrollWithin_of_unrolls {depth : Nat} {value : List Char}
    (unrolls : Unrolls scope depth current text value) :
    unrollWithin scope (depth + 1) current text = some value := by
  induction depth generalizing current text value with
  | zero => exact unrollStep_of_unrolls (fun _ below => absurd below (Nat.not_lt_zero _)) unrolls
  | succ depth ih =>
    refine unrollStep_of_unrolls (fun less below current text value inner => ?_) unrolls
    exact ih (inner.mono (Nat.le_of_lt_succ below))

theorem unrolls_of_unrollWithin {depth : Nat} {value : List Char}
    (found : unrollWithin scope depth current text = some value) :
    ∃ depth, Unrolls scope depth current text value := by
  induction depth generalizing current text value with
  | zero => cases found
  | succ depth ih => exact unrolls_of_unrollStep (fun _ _ _ inner => ih inner) found

theorem Unrolls.unique {depth more : Nat} {value other : List Char}
    (left : Unrolls scope depth current text value)
    (right : Unrolls scope more current text other) : value = other := by
  have one := unrollWithin_of_unrolls (left.mono (Nat.le_max_left depth more))
  have two := unrollWithin_of_unrolls (right.mono (Nat.le_max_right depth more))
  rw [one] at two
  exact Option.some.inj two

theorem unrollRest_eq_some_iff {value : List Char} :
    unrollRest scope current text = some value ↔
      ∃ depth, Unrolls scope depth current text value := by
  rw [unrollRest]
  constructor
  · intro found
    split at found
    next ends =>
      cases found
      obtain ⟨depth, reached⟩ := ends.choose_spec
      exact unrolls_of_unrollWithin reached
    next => cases found
  · rintro ⟨depth, unrolls⟩
    have ends : ∃ value depth, unrollWithin scope depth current text = some value :=
      ⟨value, depth + 1, unrollWithin_of_unrolls unrolls⟩
    obtain ⟨more, reached⟩ := ends.choose_spec
    obtain ⟨more, other⟩ := unrolls_of_unrollWithin reached
    rw [dif_pos ends, other.unique unrolls]

theorem unrollRest_of_unrolls {depth : Nat} {value : List Char}
    (unrolls : Unrolls scope depth current text value) :
    unrollRest scope current text = some value :=
  unrollRest_eq_some_iff.mpr ⟨depth, unrolls⟩

theorem unrolls_of_unrollRest {value : List Char}
    (found : unrollRest scope current text = some value) :
    ∃ depth, Unrolls scope depth current text value :=
  unrollRest_eq_some_iff.mp found

theorem unrollRest_eq (scope : Scope) (current text : List Char) :
    unrollRest scope current text = unrollStep scope (unrollRest scope) current text := by
  apply Option.ext
  intro value
  constructor
  · intro ends
    obtain ⟨depth, unrolls⟩ := unrolls_of_unrollRest ends
    exact unrollStep_of_unrolls (fun _ _ _ _ _ inner => unrollRest_of_unrolls inner) unrolls
  · intro step
    exact unrollRest_eq_some_iff.mpr (unrolls_of_unrollStep (fun _ _ _ => unrolls_of_unrollRest) step)

theorem unrollRest_least {next : List Char → List Char → Option (List Char)}
    (solves : ∀ current text, next current text = unrollStep scope next current text)
    {value : List Char} (ends : unrollRest scope current text = some value) :
    next current text = some value := by
  obtain ⟨depth, unrolls⟩ := unrolls_of_unrollRest ends
  induction depth using Nat.strongRecOn generalizing current text value with
  | ind depth ih =>
    rw [solves]
    exact unrollStep_of_unrolls
      (fun less below _ _ _ inner => ih less below (unrollRest_of_unrolls inner) inner) unrolls

theorem unrollRest_reference (first : Piece.next? text = some (.reference target, rest)) :
    unrollRest scope current text =
      ((scope.demand current target).answer (unrollRest scope) >>= fun value =>
        (value ++ ·) <$> unrollRest scope current rest) := by
  rw [unrollRest_eq, unrollStep_reference first]

theorem unrolls_of_expandRest {value : List Char}
    (expanded : expandRest scope stack current text = .ok value) :
    ∃ depth, Unrolls scope depth current text value := by
  induction stack, current, text using expandRest_induction scope generalizing value with
  | done stack current text last =>
    rw [expandRest_done last] at expanded
    cases expanded
    exact ⟨0, .done last⟩
  | plain stack current text c rest first ih =>
    rw [expandRest_plain first, map_eq_ok_iff] at expanded
    obtain ⟨tail, later, rfl⟩ := expanded
    obtain ⟨depth, later⟩ := ih later
    exact ⟨_, .plain first later⟩
  | escaped stack current text source rest first ih =>
    rw [expandRest_escaped first, map_eq_ok_iff] at expanded
    obtain ⟨tail, later, rfl⟩ := expanded
    obtain ⟨depth, later⟩ := ih later
    exact ⟨_, .escaped first later⟩
  | given stack current text target rest given first demanded ih =>
    rw [expandRest_given first demanded, map_eq_ok_iff] at expanded
    obtain ⟨tail, later, rfl⟩ := expanded
    obtain ⟨depth, later⟩ := ih later
    exact ⟨_, .given first demanded later⟩
  | site stack current text target rest site first demanded inner later =>
    rw [expandRest_site first demanded, bind_eq_ok_iff] at expanded
    obtain ⟨value, entered, expanded⟩ := expanded
    rw [map_eq_ok_iff] at expanded
    obtain ⟨tail, after, rfl⟩ := expanded
    by_cases fresh : site.fresh stack = true
    next =>
      rw [if_pos fresh] at entered
      obtain ⟨depth, inside⟩ := inner fresh entered
      obtain ⟨more, after⟩ := later after
      exact ⟨_, .site first demanded (inside.mono (Nat.le_max_left depth more))
        (after.mono (Nat.le_max_right depth more))⟩
    next => simp [fresh] at entered

/-- No name of the stack has a text whose expansion ends within fewer than `depth` steps. -/
def Unfinished (scope : Scope) (depth : Nat) (stack : List String) : Prop :=
  ∀ name ∈ stack, ∀ value, scope.text? name = some value →
    ∀ less < depth, ∀ result, ¬ Unrolls scope less value.toList value.toList result

theorem Unfinished.less {depth less : Nat} (unfinished : Unfinished scope depth stack)
    (fewer : less ≤ depth) : Unfinished scope less stack :=
  fun name member value held few below => unfinished name member value held few (by omega)

theorem Unfinished.enter {depth : Nat} {site : Site} {value : List Char}
    (unfinished : Unfinished scope (depth + 1) stack)
    (demanded : scope.demand current target = .site site)
    (inner : Unrolls scope depth site.text site.text value) :
    ∃ least ≤ depth, Unrolls scope least site.text site.text value ∧
      Unfinished scope least (stack ++ site.owner.toList) := by
  classical
  -- The owner joins the stack at the least depth at which its text is expanded.
  have ends : ∃ depth, Unrolls scope depth site.text site.text value := ⟨depth, inner⟩
  refine ⟨Nat.find ends, Nat.find_min' ends inner, Nat.find_spec ends, ?_⟩
  intro name member held text less below result unrolls
  rcases List.mem_append.mp member with old | new
  · have within := Nat.find_min' ends inner
    exact unfinished name old held text less (by omega) result unrolls
  · have same := Scope.text_of_demand demanded (Option.mem_toList.mp new)
    rw [text, Option.some.injEq] at same
    subst same
    rw [String.toList_ofList] at unrolls
    exact Nat.find_min ends below (unrolls.unique inner ▸ unrolls)

theorem Unfinished.fresh {depth : Nat} {site : Site} {value : List Char}
    (unfinished : Unfinished scope (depth + 1) stack)
    (demanded : scope.demand current target = .site site)
    (inner : Unrolls scope depth site.text site.text value) : site.fresh stack = true := by
  simp only [Site.fresh, Option.all_eq_true, decide_eq_true_eq]
  intro name owned seen
  have text := Scope.text_of_demand demanded owned
  exact unfinished name seen _ text depth (by omega) value (by simpa using inner)

theorem expandRest_of_unrolls {depth : Nat} {value : List Char}
    (unrolls : Unrolls scope depth current text value) (unfinished : Unfinished scope depth stack) :
    expandRest scope stack current text = .ok value := by
  -- The depth of a site may fall by more than one: it is entered at the least one that it needs.
  induction depth using Nat.strongRecOn generalizing stack current text value with
  | ind depth ih =>
    cases unrolls with
    | done last => exact expandRest_done last
    | plain first later =>
      rw [expandRest_plain first, ih _ (by omega) later (unfinished.less (by omega))]
      rfl
    | escaped first later =>
      rw [expandRest_escaped first, ih _ (by omega) later (unfinished.less (by omega))]
      rfl
    | given first demanded later =>
      rw [expandRest_given first demanded, ih _ (by omega) later (unfinished.less (by omega))]
      rfl
    | site first demanded inner later =>
      obtain ⟨least, fewer, inside, entered⟩ := unfinished.enter demanded inner
      rw [expandRest_site first demanded, if_pos (unfinished.fresh demanded inner),
        ih least (by omega) inside entered, Except.bind,
        ih _ (by omega) later (unfinished.less (by omega))]
      rfl

theorem Scope.text?_of_field {name raw value : String} (absent : name ∉ scope.vars)
    (field : (scope.fields.get? name).map Json.render = some raw)
    (text : scope.text? name = some value) : value = raw := by
  have unset : scope.vars[name]? = none := Std.ExtTreeMap.getElem?_eq_none absent
  simp only [text?, variableText?, unset, Option.filter_none, Option.none_or, fieldText?, field,
    Option.filter_eq_some_iff, Option.some.injEq] at text
  exact text.1.symm

theorem expand_eq_ok_iff {scope : Scope} {key : Option String} {raw : String}
    (held : ∀ name ∈ key, name ∉ scope.vars ∧ (scope.fields.get? name).map Json.render = some raw)
    {result : String} : expand scope key raw = .ok result ↔ unroll scope raw = some result := by
  simp only [expand, unroll, map_eq_ok_iff, Option.map_eq_some_iff]
  refine exists_congr fun chars => and_congr_left' ?_
  constructor
  · exact fun expanded => unrollRest_eq_some_iff.mpr (unrolls_of_expandRest expanded)
  · intro ends
    classical
    have found := unrollRest_eq_some_iff.mp ends
    refine expandRest_of_unrolls (Nat.find_spec found) ?_
    -- The key is unfinished too: its own text is the one that is expanded here.
    intro name member value text less below other unrolls
    obtain ⟨absent, field⟩ := held name (Option.mem_toList.mp member)
    have same := Scope.text?_of_field absent field text
    subst same
    exact Nat.find_min found below (unrolls.unique (Nat.find_spec found) ▸ unrolls)

theorem resolve_eq_ok_iff (scope : Scope) {key raw : String} (absent : key ∉ scope.vars)
    (field : scope.fields.get? key = some (.str raw)) {value : Json} :
    resolve scope key raw = .ok value ↔
      ∃ text, unroll scope raw = some text ∧ typed text = value := by
  have held : ∀ name ∈ some key, name ∉ scope.vars ∧
      (scope.fields.get? name).map Json.render = some raw := by
    intro name same
    cases same
    exact ⟨absent, by simp [field, Json.render]⟩
  rw [resolve, map_eq_ok_iff]
  exact exists_congr fun text => and_congr_left' (expand_eq_ok_iff held)

/-- The stack reports a cycle exactly where expansion without it would not end, and otherwise it
changes nothing. -/
theorem expand_iff_unroll (scope : Scope) (key : Option String) (raw : String)
    (held : ∀ name ∈ key, name ∉ scope.vars ∧
      (scope.fields.get? name).map Json.render = some raw) :
    (∀ result, expand scope key raw = .ok result ↔ unroll scope raw = some result) ∧
      ((∃ chain, expand scope key raw = .error chain) ↔ unroll scope raw = none) := by
  refine ⟨fun result => expand_eq_ok_iff held, ?_⟩
  cases expanded : expand scope key raw with
  | ok result => simp [expand_eq_ok_iff held |>.mp expanded]
  | error chain =>
    cases ends : unroll scope raw with
    | none => simp
    | some result =>
      rw [(expand_eq_ok_iff held).mpr ends] at expanded
      cases expanded

def mutualScope : Scope := ⟨∅, [("A", .str "${B}"), ("B", .str "x${A:-1}")]⟩

theorem expand_mutualScope : expand mutualScope (some "A") "${B}" = .error ["A", "B", "A"] := by
  have outer : Piece.next? "${B}".toList = some (.reference ⟨"B", []⟩, []) := by decide +kernel
  have within : mutualScope.demand "${B}".toList ⟨"B", []⟩ = .site ⟨"B", "x${A:-1}".toList⟩ := by
    decide +kernel
  have plain : Piece.next? "x${A:-1}".toList = some (.plain 'x', "${A:-1}".toList) := by
    decide +kernel
  have inner : Piece.next? "${A:-1}".toList = some (.reference ⟨"A", ['1']⟩, []) := by
    decide +kernel
  have back : mutualScope.demand "x${A:-1}".toList ⟨"A", ['1']⟩ = .site ⟨"A", "${B}".toList⟩ := by
    decide +kernel
  rw [expand, expandRest_site outer within, if_pos (by decide), expandRest_plain plain,
    expandRest_site inner back, if_neg (by decide)]
  rfl

theorem mutual_reference_never_ends :
    (∀ name ∈ some "A", name ∉ mutualScope.vars ∧
      (mutualScope.fields.get? name).map Json.render = some "${B}") ∧
      unroll mutualScope "${B}" = none := by
  have held : ∀ name ∈ some "A", name ∉ mutualScope.vars ∧
      (mutualScope.fields.get? name).map Json.render = some "${B}" := by
    intro name same
    cases same
    exact ⟨Std.ExtTreeMap.not_mem_empty, rfl⟩
  exact ⟨held, (expand_iff_unroll mutualScope (some "A") "${B}" held).2.mp ⟨_, expand_mutualScope⟩⟩

end LayeredEnv.Value
