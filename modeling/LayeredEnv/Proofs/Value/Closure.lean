import LayeredEnv.Proofs.Value.Mention

set_option autoImplicit false

namespace LayeredEnv.Value

/-- The least set that holds every name that the text mentions, and with a name also those that its
variable and its field mention. -/
inductive Reachable (scope : Scope) (text : List Char) : String → Prop
  | start {name : String} (mentions : Mentions text name) : Reachable scope text name
  | fromVariable {name inner value : String} (reachable : Reachable scope text name)
    (held : scope.vars[name]? = some value) (mentions : Mentions value.toList inner) :
    Reachable scope text inner
  | fromField {name inner : String} {value : Json} (reachable : Reachable scope text name)
    (found : scope.fields.get? name = some value) (mentions : Mentions value.render.toList inner) :
    Reachable scope text inner

def AgreeOn (left right : Scope) (name : String) : Prop :=
  left.vars[name]? = right.vars[name]? ∧ left.fields.get? name = right.fields.get? name

instance (left right : Scope) (name : String) : Decidable (AgreeOn left right name) :=
  inferInstanceAs (Decidable (_ ∧ _))

theorem Reachable.of_text? {scope : Scope} {text : List Char} {name inner value : String}
    (reachable : Reachable scope text name) (stands : scope.text? name = some value)
    (mentions : Mentions value.toList inner) : Reachable scope text inner := by
  rw [Scope.text?, Option.or_eq_some_iff] at stands
  rcases stands with held | ⟨_, held⟩
  · rw [Scope.variableText?, Option.filter_eq_some_iff] at held
    exact reachable.fromVariable held.1 mentions
  · rw [Scope.fieldText?, Option.filter_eq_some_iff, Option.map_eq_some_iff] at held
    obtain ⟨⟨field, found, rfl⟩, _⟩ := held
    exact reachable.fromField found mentions

theorem reachable_of_demand {scope : Scope} {start current text rest : List Char}
    {target : Reference} {site : Site}
    (inside : ∀ name, Mentions text name → Reachable scope start name)
    (first : Piece.next? text = some (.reference target, rest))
    (demanded : scope.demand current target = .site site) :
    ∀ name, Mentions site.text name → Reachable scope start name := by
  intro name mentions
  -- A site is the fallback of the reference or the text of its name, which is reachable itself.
  cases owned : site.owner with
  | none =>
    rw [Scope.demand_unowned demanded owned] at mentions
    exact inside name (mentions.of_fallback first)
  | some owner =>
    obtain ⟨rfl, _⟩ := Scope.demand_owner demanded owned
    have stands := Scope.text_of_demand demanded owned
    refine (inside _ (mentions_target first)).of_text? stands ?_
    rwa [String.toList_ofList]

theorem expandRest_of_agree {left right : Scope} {start : List Char}
    (agree : ∀ name, Reachable left start name → AgreeOn left right name)
    (stack : List String) (current text : List Char)
    (inside : ∀ name, Mentions text name → Reachable left start name) :
    expandRest left stack current text = expandRest right stack current text := by
  -- Both expansions take the same steps, as long as the text in hand mentions reachable names only.
  induction stack, current, text using expandRest_induction left with
  | done stack current text last => rw [expandRest_done last, expandRest_done last]
  | plain stack current text c rest first ih =>
    rw [expandRest_plain first, expandRest_plain first,
      ih fun name mentions => inside name (mentions.of_rest first)]
  | escaped stack current text source rest first ih =>
    rw [expandRest_escaped first, expandRest_escaped first,
      ih fun name mentions => inside name (mentions.of_rest first)]
  | given stack current text target rest value first demanded ih =>
    obtain ⟨vars, field⟩ := agree _ (inside _ (mentions_target first))
    have same := Scope.demand_congr vars field current
    rw [expandRest_given first demanded, expandRest_given first (same ▸ demanded),
      ih fun name mentions => inside name (mentions.of_rest first)]
  | site stack current text target rest site first demanded inner later =>
    obtain ⟨vars, field⟩ := agree _ (inside _ (mentions_target first))
    have same := Scope.demand_congr vars field current
    rw [expandRest_site first demanded, expandRest_site first (same ▸ demanded),
      later fun name mentions => inside name (mentions.of_rest first)]
    by_cases fresh : site.fresh stack = true
    next =>
      rw [if_pos fresh, if_pos fresh, inner fresh (reachable_of_demand inside first demanded)]
    next => rw [if_neg fresh, if_neg fresh]

/-- Scopes that agree on the reachable names expand and resolve a text alike: to the same value, or
with the same cycle. -/
theorem unreachable_names_ignored (left right : Scope) (raw : String)
    (agree : ∀ name, Reachable left raw.toList name → AgreeOn left right name) :
    (∀ key, expand left key raw = expand right key raw) ∧
    ∀ key, resolve left key raw = resolve right key raw := by
  have same (key : Option String) : expand left key raw = expand right key raw := by
    rw [expand, expand, expandRest_of_agree agree _ _ _ fun _ mentions => .start mentions]
  refine ⟨same, fun key => ?_⟩
  rw [resolve, resolve, same]

def Closed (scope : Scope) (names : List String) : Prop :=
  ∀ name ∈ names,
    (∀ value ∈ scope.vars[name]?, ∀ inner ∈ mentioned value.toList, inner ∈ names) ∧
    ∀ value ∈ scope.fields.get? name, ∀ inner ∈ mentioned value.render.toList, inner ∈ names

instance (scope : Scope) (names : List String) : Decidable (Closed scope names) :=
  inferInstanceAs (Decidable (∀ name ∈ names, _ ∧ _))

theorem Reachable.mem_of_closed {scope : Scope} {text : List Char} {names : List String}
    (start : ∀ name ∈ mentioned text, name ∈ names) (closed : Closed scope names) {name : String}
    (reachable : Reachable scope text name) : name ∈ names := by
  induction reachable with
  | start mentions => exact start _ (mem_mentioned mentions)
  | fromVariable _ held mentions ih => exact (closed _ ih).1 _ held _ (mem_mentioned mentions)
  | fromField _ found mentions ih => exact (closed _ ih).2 _ found _ (mem_mentioned mentions)

def nearScope : Scope where
  vars := Variables.ofList [("A", "${B}")]
  fields := [("B", .str "b"), ("Z", .str "${Z}")]

def farScope : Scope where
  vars := Variables.ofList [("A", "${B}"), ("Y", "y")]
  fields := [("Z", .str "z"), ("B", .str "b")]

theorem expand_nearScope : expand nearScope none "${A:-$C}" = .ok "b" := by
  have outer : Piece.next? "${A:-$C}".toList = some (.reference ⟨"A", "$C".toList⟩, []) := rfl
  have inner : Piece.next? "${B}".toList = some (.reference ⟨"B", []⟩, []) := rfl
  have within : nearScope.demand "${A:-$C}".toList ⟨"A", "$C".toList⟩ =
      .site ⟨"A", "${B}".toList⟩ := by decide
  have last : nearScope.demand "${B}".toList ⟨"B", []⟩ = .site ⟨"B", "b".toList⟩ := by decide
  have plain : Plain "b".toList := plain_of_no_dollar (by decide)
  rw [expand, expandRest_site outer within, if_pos (by decide), expandRest_site inner last,
    if_pos (by decide), plain.expandRest, Plain.nil.expandRest, Plain.nil.expandRest]
  rfl

theorem far_names_ignored :
    (∀ name, Reachable nearScope "${A:-$C}".toList name → AgreeOn nearScope farScope name) ∧
    ¬ AgreeOn nearScope farScope "Y" ∧ ¬ AgreeOn nearScope farScope "Z" ∧
    expand farScope none "${A:-$C}" = .ok "b" := by
  have agree : ∀ name, Reachable nearScope "${A:-$C}".toList name →
      AgreeOn nearScope farScope name := by
    intro name reachable
    have common : ∀ name ∈ ["A", "B", "C"], AgreeOn nearScope farScope name := by decide
    exact common name (reachable.mem_of_closed (by decide) (by decide))
  have same := (unreachable_names_ignored nearScope farScope "${A:-$C}" agree).1 none
  exact ⟨agree, by decide, by decide, same.symm.trans expand_nearScope⟩

end LayeredEnv.Value
