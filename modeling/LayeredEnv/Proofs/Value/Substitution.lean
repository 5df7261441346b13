import LayeredEnv.Proofs.Value.Spelling

set_option autoImplicit false

namespace LayeredEnv.Value

variable {scope : Scope} {stack : List String} {current : List Char} {target : Reference}

/-- Text around a reference that belongs neither to it nor to another one. -/
structure Around (before after : String) : Prop where
  opening : '$' ∉ before.toList
  unshielded : before.toList.getLast? ≠ some '\\'
  closing : '$' ∉ after.toList

theorem expandRest_before {before : List Char} (dollar : '$' ∉ before)
    (unshielded : before.getLast? ≠ some '\\') (text : List Char) :
    expandRest scope stack current (before ++ text) =
      (expandRest scope stack current text).map (before ++ ·) := by
  induction before with
  | nil =>
    rw [List.nil_append]
    cases expandRest scope stack current text <;> rfl
  | cons c before ih =>
    simp only [List.mem_cons, not_or] at dollar
    have first : Piece.next? (c :: (before ++ text)) = some (.plain c, before ++ text) := by
      refine next?_plain (Ne.symm dollar.1) fun backslash head => ?_
      cases before with
      | nil => simp [backslash] at unshielded
      | cons d more => simp_all
    have later : before.getLast? ≠ some '\\' := by
      cases before with
      | nil => simp
      | cons d more => simpa using unshielded
    rw [List.cons_append, expandRest_plain first, ih dollar.2 later]
    cases expandRest scope stack current text <;> rfl

theorem Scope.lookup_of_text? {name value : String} (stands : scope.text? name = some value)
    (apart : value.toList ≠ current) :
    scope.lookup current name = .verbatim value ∨ scope.lookup current name = .pending value := by
  rw [text?] at stands
  rw [lookup]
  cases held : scope.variableText? name with
  | some text =>
    rw [held, Option.some_or, Option.some.injEq] at stands
    subst stands
    exact ite_eq_or_eq _ _ _
  | none =>
    rw [held, Option.none_or] at stands
    simp [stands, apart]

theorem Scope.lookup_of_unset {name : String} (unset : scope.text? name = none)
    (current : List Char) : scope.lookup current name = .unset := by
  rw [text?, Option.or_eq_none_iff] at unset
  rw [lookup, unset.1, unset.2]

theorem Scope.enter_of_text? {value : String} (stands : scope.text? target.name = some value)
    (literal : '$' ∉ value.toList) (dollar : '$' ∈ current) (fresh : target.name ∉ stack) :
    (scope.demand current target).enter scope stack = .ok value.toList := by
  have apart : value.toList ≠ current := fun same => literal (same ▸ dollar)
  rcases lookup_of_text? stands apart with verbatim | pending
  · simp [demand, verbatim, Demand.enter]
  · simp [demand, pending, Demand.enter, Site.fresh, fresh, (plain_of_no_dollar literal).expandRest]

theorem Scope.enter_of_unset (unset : scope.text? target.name = none) :
    (scope.demand current target).enter scope stack =
      if target.fallback.head? = some '$' then
        expandRest scope stack target.fallback target.fallback
      else .ok target.fallback := by
  rw [demand, lookup_of_unset unset]
  by_cases nested : target.fallback.head? = some '$' <;>
    simp [nested, Demand.enter, Site.fresh]

theorem expandRest_around {before after : String} (around : Around before after) {body : List Char}
    (read : Reference.read? body = some (target, after.toList)) :
    expandRest scope stack current (before.toList ++ '$' :: body) =
      ((scope.demand current target).enter scope stack).map
        fun value => before.toList ++ (value ++ after.toList) := by
  rw [expandRest_before around.opening around.unshielded,
    expandRest_reference (Piece.next?_dollar read),
    (plain_of_no_dollar around.closing).expandRest]
  cases (scope.demand current target).enter scope stack <;> rfl

theorem expand_around {before after name fallback text : String} (around : Around before after)
    {body : List Char} (spelled : text.toList = before.toList ++ '$' :: body)
    (read : Reference.read? body = some (⟨name, fallback.toList⟩, after.toList))
    (literal : '$' ∉ fallback.toList)
    (values : ∀ value ∈ scope.text? name, '$' ∉ value.toList) :
    expand scope none text = .ok (before ++ (scope.text? name).getD fallback ++ after) := by
  have entered : (scope.demand text.toList ⟨name, fallback.toList⟩).enter scope [] =
      .ok ((scope.text? name).getD fallback).toList := by
    cases stands : scope.text? name with
    | some value =>
      have dollar : '$' ∈ text.toList := by simp [spelled]
      exact Scope.enter_of_text? stands (values value stands) dollar List.not_mem_nil
    | none =>
      have flat : fallback.toList.head? ≠ some '$' :=
        fun head => literal (List.mem_of_mem_head? head)
      exact (Scope.enter_of_unset stands).trans (if_neg flat)
  have expanded := @expandRest_around scope [] text.toList _ _ _ around _ read
  rw [← spelled, entered] at expanded
  simp [expand, expanded, Except.map, ← String.toList_inj]

theorem expand_defaulted {before after name separator fallback : String}
    (around : Around before after) (named : IsName name) (separates : separator ∈ separators)
    (flat : Flat fallback) (values : ∀ value ∈ scope.text? name, '$' ∉ value.toList) :
    expand scope none (before ++ defaulted name separator fallback ++ after) =
      .ok (before ++ (scope.text? name).getD fallback ++
        ((if fallback = "" then separator ++ "\x7d" else "") ++ after)) := by
  have spelled : (before ++ defaulted name separator fallback ++ after).toList =
      before.toList ++ '$' :: '\x7b' :: (name.toList ++
        (separator.toList ++ (fallback.toList ++ '\x7d' :: after.toList))) := by
    simp [defaulted]
  by_cases empty : fallback = ""
  next =>
    subst empty
    have left : Around before (separator ++ "\x7d" ++ after) := by
      refine ⟨around.opening, around.unshielded, ?_⟩
      rcases separator_cases separates with rfl | rfl <;> simp [around.closing]
    have read := Reference.read?_undefaulted named separates after.toList
    exact expand_around left spelled (by simpa using read) flat.1 values
  next =>
    have filled : fallback.toList ≠ [] := fun none => empty (String.toList_eq_nil_iff.mp none)
    have read := Reference.read?_defaulted named separates filled
      (Reference.takeFallback_flat flat after.toList)
    rw [if_neg empty, String.empty_append]
    exact expand_around around spelled read flat.1 values

/-- A reference with a plain fallback between plain texts is replaced by its value, or by its
fallback if it has none, exactly if the fallback is not empty. Behind an empty one the separator and
the closing brace stay in the text. -/
theorem defaulted_replaced_iff (scope : Scope) (before after name separator fallback : String)
    (around : Around before after) (named : IsName name) (separates : separator ∈ separators)
    (flat : Flat fallback) (values : ∀ value ∈ scope.text? name, '$' ∉ value.toList) :
    expand scope none (before ++ defaulted name separator fallback ++ after) =
        .ok (before ++ (scope.text? name).getD fallback ++
          ((if fallback = "" then separator ++ "\x7d" else "") ++ after)) ∧
      (expand scope none (before ++ defaulted name separator fallback ++ after) =
        .ok (before ++ (scope.text? name).getD fallback ++ after) ↔ fallback ≠ "") := by
  have expanded := expand_defaulted around named separates flat values
  refine ⟨expanded, ?_⟩
  rw [expanded]
  by_cases empty : fallback = ""
  next =>
    refine iff_of_false (fun same => ?_) (not_not.mpr empty)
    have lengths := congrArg String.length (Except.ok.inj same)
    simp [empty] at lengths
  next => simp [empty]

def portScope : Scope where
  vars := Variables.ofList [("PORT", "8080"), ("HOST", "")]
  fields := [("PORT", .num (.int 80)), ("HOST", .str "")]

theorem unset_host_defaulted :
    Around "\\u//" "\x7d:-/" ∧ IsName "HOST" ∧ "-" ∈ separators ∧ Flat "a-\x7bb:" ∧
      (∀ value ∈ portScope.text? "HOST", '$' ∉ value.toList) ∧
      expand portScope none ("\\u//" ++ defaulted "HOST" "-" "a-\x7bb:" ++ "\x7d:-/") =
        .ok "\\u//a-\x7bb:\x7d:-/" := by
  have around : Around "\\u//" "\x7d:-/" := ⟨by decide, by decide, by decide⟩
  have values : ∀ value ∈ portScope.text? "HOST", '$' ∉ value.toList := by decide
  have replaced := (defaulted_replaced_iff portScope "\\u//" "\x7d:-/" "HOST" "-" "a-\x7bb:" around
    (by decide) (by decide) (by decide) values).1
  exact ⟨around, by decide, by decide, by decide, values, replaced⟩

theorem empty_fallback_left_over :
    ¬ ∀ (scope : Scope) (before after name separator fallback : String), Around before after →
      IsName name → separator ∈ separators → Flat fallback →
      (∀ value ∈ scope.text? name, '$' ∉ value.toList) →
      expand scope none (before ++ defaulted name separator fallback ++ after) =
        .ok (before ++ (scope.text? name).getD fallback ++ after) := by
  intro replaced
  have around : Around "" "" := ⟨by decide, by decide, by decide⟩
  have values : ∀ value ∈ portScope.text? "PORT", '$' ∉ value.toList := by decide
  have same := replaced portScope "" "" "PORT" ":-" "" around (by decide) (by decide) (by decide)
    values
  rw [expand_defaulted around (by decide) (by decide) (by decide) values] at same
  revert same
  decide

theorem Reference.dropClosing_eq_self_iff (text : List Char) :
    dropClosing text = text ↔ text.head? ≠ some '\x7d' := by
  unfold dropClosing
  split
  next rest => simp
  next other =>
    refine iff_of_true rfl fun head => ?_
    obtain ⟨rest, rfl⟩ := List.head?_eq_some_iff.mp head
    exact other rest rfl

theorem expand_bare {before after name value : String} (around : Around before after)
    (named : IsName name) (ends : EndsBare after) (stands : scope.text? name = some value)
    (literal : '$' ∉ value.toList) :
    expand scope none (before ++ "$" ++ name ++ after) =
      .ok (before ++ value ++ String.ofList (Reference.dropClosing after.toList)) := by
  have spelled : (before ++ "$" ++ name ++ after).toList =
      before.toList ++ '$' :: (name.toList ++ after.toList) := by simp
  have left : Around before (String.ofList (Reference.dropClosing after.toList)) := by
    obtain ⟨closing, closed⟩ := Reference.dropClosing_eq after.toList
    refine ⟨around.opening, around.unshielded, fun member => around.closing ?_⟩
    rw [String.toList_ofList] at member
    rw [closed]
    exact List.mem_append_right _ member
  have values : ∀ text ∈ scope.text? name, '$' ∉ text.toList := by
    intro text held
    rw [stands] at held
    cases held
    exact literal
  have replaced := @expand_around scope before _ name "" _ left _ spelled
    (by simpa using Reference.read?_bare named ends) (by simp) values
  rw [replaced, stands]
  rfl

/-- A bare name between plain texts is replaced by its value. A closing brace directly behind it is
taken away with it, and nothing else. -/
theorem bare_replaced_iff (scope : Scope) (before after name value : String)
    (around : Around before after) (named : IsName name) (ends : EndsBare after)
    (stands : scope.text? name = some value) (literal : '$' ∉ value.toList) :
    expand scope none (before ++ "$" ++ name ++ after) =
        .ok (before ++ value ++ String.ofList (Reference.dropClosing after.toList)) ∧
      (expand scope none (before ++ "$" ++ name ++ after) = .ok (before ++ value ++ after) ↔
        after.toList.head? ≠ some '\x7d') := by
  have expanded := expand_bare around named ends stands literal
  refine ⟨expanded, ?_⟩
  rw [expanded, ← Reference.dropClosing_eq_self_iff]
  simp [← String.toList_inj]

theorem bare_name_replaced :
    Around "[" ",\\-:\x7d]" ∧ IsName "PORT" ∧ EndsBare ",\\-:\x7d]" ∧
      portScope.text? "PORT" = some "8080" ∧ '$' ∉ "8080".toList ∧
      expand portScope none ("[" ++ "$" ++ "PORT" ++ ",\\-:\x7d]") = .ok "[8080,\\-:\x7d]" := by
  have around : Around "[" ",\\-:\x7d]" := ⟨by decide, by decide, by decide⟩
  have stands : portScope.text? "PORT" = some "8080" := by decide
  have replaced := (bare_replaced_iff portScope "[" ",\\-:\x7d]" "PORT" "8080" around (by decide)
    (by decide) stands (by decide)).1
  exact ⟨around, by decide, by decide, stands, by decide, replaced⟩

theorem brace_behind_bare_name_lost :
    ¬ ∀ (scope : Scope) (before after name value : String), Around before after → IsName name →
      EndsBare after → scope.text? name = some value → '$' ∉ value.toList →
      expand scope none (before ++ "$" ++ name ++ after) = .ok (before ++ value ++ after) := by
  intro kept
  have around : Around "\x7b\"port\":" "\x7d" := ⟨by decide, by decide, by decide⟩
  have stands : portScope.text? "PORT" = some "8080" := by decide
  have same := kept portScope "\x7b\"port\":" "\x7d" "PORT" "8080" around (by decide) (by decide)
    stands (by decide)
  rw [expand_bare around (by decide) (by decide) stands (by decide)] at same
  revert same
  decide

end LayeredEnv.Value
