import LayeredEnv.Proofs.Value.Reach

set_option autoImplicit false

namespace LayeredEnv.Value

def IsName (name : String) : Prop := name ≠ "" ∧ ∀ c ∈ name.toList, isNameChar c = true

instance (name : String) : Decidable (IsName name) :=
  decidable_of_iff (name ≠ "" ∧ name.toList.all isNameChar = true) (by simp [IsName])

def referenceTo (name : String) : String := "$\x7b" ++ name ++ "\x7d"

variable {scope : Scope} {name : String}

theorem toList_referenceTo (name : String) :
    (referenceTo name).toList = '$' :: '\x7b' :: (name.toList ++ ['\x7d']) := by
  simp [referenceTo]

theorem next?_referenceTo (named : IsName name) :
    Piece.next? (referenceTo name).toList = some (.reference ⟨name, []⟩, []) := by
  have outside : isNameChar '\x7d' = false := by decide
  have read : Reference.read? ('\x7b' :: (name.toList ++ ['\x7d'])) = some (⟨name, []⟩, []) := by
    simp [Reference.read?, Reference.dropOpening, List.takeWhile_append_of_pos named.2,
      List.dropWhile_append_of_pos named.2, outside, Reference.readFallback,
      Reference.dropClosing, named.1]
  rw [toList_referenceTo, Piece.next?.eq_def]
  simp [read]

theorem refers_referenceTo (named : IsName name) {target : Reference}
    (refers : Refers (referenceTo name).toList target) : target = ⟨name, []⟩ := by
  rcases refers.next (next?_referenceTo named) with same | later
  · cases same
    rfl
  · exact absurd later (Plain.nil.not_refers target)

theorem unroll_referenceTo_eq_lookup (scope : Scope) {name : String} (named : IsName name) :
    unroll scope (referenceTo name) =
      match scope.lookup (referenceTo name).toList name with
      | .verbatim text => some text
      | .pending text => unroll scope text
      | .unset => some "" := by
  have last : unrollRest scope (referenceTo name).toList [] = some [] := Plain.nil.unrollRest _ _
  rw [unroll, unrollRest_reference (next?_referenceTo named), answer_demand, last]
  cases scope.lookup (referenceTo name).toList name with
  | verbatim text => simp
  | pending text => simp [unroll]
  | unset => simp

def Scope.verbatim? (scope : Scope) (name : String) : Option String :=
  (scope.variableText? name).filter fun text => (scope.fields.get? name).bind Json.str? = some text

theorem unroll_referenceTo (named : IsName name) :
    unroll scope (referenceTo name) =
      match scope.verbatim? name with
      | some text => some text
      | none => unroll scope ((scope.text? name).getD "") := by
  have whole := unroll_referenceTo_eq_lookup scope named
  cases held : scope.variableText? name with
  | some text =>
    by_cases same : (scope.fields.get? name).bind Json.str? = some text <;>
      simpa [Scope.lookup, Scope.verbatim?, Scope.text?, held, same, Option.filter_some] using whole
  | none =>
    cases field : scope.fieldText? name with
    | none =>
      simpa [Scope.lookup, Scope.verbatim?, Scope.text?, held, field, unroll_empty] using whole
    | some text =>
      -- A field that is the very reference counts as none, and expanding it gives nothing too.
      by_cases same : text = referenceTo name
      next => simp [Scope.verbatim?, Scope.text?, held, field, same]
      next =>
        simpa [Scope.lookup, Scope.verbatim?, Scope.text?, held, field, same, String.toList_inj]
          using whole

theorem unroll_referenceTo_of_field (scope : Scope) {name : String} (named : IsName name)
    (absent : name ∉ scope.vars) {value : Json} (field : scope.fields.get? name = some value) :
    unroll scope (referenceTo name) = unroll scope value.render := by
  have unset : scope.vars[name]? = none := Std.ExtTreeMap.getElem?_eq_none absent
  have text : (scope.text? name).getD "" = value.render := by
    by_cases empty : value.render = "" <;>
      simp [Scope.text?, Scope.variableText?, Scope.fieldText?, Option.filter_some, unset, field,
        empty]
  have pending : scope.verbatim? name = none := by
    simp [Scope.verbatim?, Scope.variableText?, unset]
  rw [unroll_referenceTo named, pending, text]

def Passes (scope : Scope) (name text : String) : Prop :=
  match scope.verbatim? name with
  | some held => (typed held).render = text
  | none => ∃ expanded, unroll scope ((scope.text? name).getD "") = some expanded ∧
      (typed expanded).render = text

theorem passes_iff (named : IsName name) {expanded : String}
    (ends : unroll scope (referenceTo name) = some expanded) (text : String) :
    Passes scope name text ↔ (typed expanded).render = text := by
  rw [unroll_referenceTo named] at ends
  rw [Passes]
  cases held : scope.verbatim? name with
  | some held =>
    simp only [held, Option.some.injEq] at ends
    rw [ends]
  | none =>
    simp only [held] at ends
    simp [ends]

theorem not_refers_back {copy source : String} {site : Site} {target : Reference}
    {value : List Char} (named : IsName name)
    (differ : name ≠ copy) (outside : name ∉ scope.vars) (absent : copy ∉ scope.vars)
    (field : scope.fields.get? name = some (.str source))
    (copied : scope.fields.get? copy = some (.str (referenceTo name)))
    (ends : unrollRest scope source.toList source.toList = some value)
    (leads : Leads scope ⟨some name, source.toList⟩ site) (refers : Refers site.text target) :
    target.name ≠ copy := by
  intro same
  subst same
  -- Otherwise the reference enters the copy, and the copy leads back to the name.
  have apart : site.text ≠ (referenceTo name).toList := by
    intro whole
    rw [whole] at refers
    exact differ (congrArg Reference.name (refers_referenceTo named refers)).symm
  have entered : scope.demand site.text target =
      .site ⟨some target.name, (referenceTo name).toList⟩ :=
    scope.demand_of_text absent copied (by simp [referenceTo]) apart
  have other := leads.no_return ends refers entered
  have filled : source ≠ "" := by
    rintro rfl
    have here := Plain.nil.leads leads
    subst here
    exact Plain.nil.not_refers _ refers
  have back : scope.demand (referenceTo name).toList ⟨name, []⟩ =
      .site ⟨some name, source.toList⟩ :=
    @Scope.demand_of_text scope _ ⟨name, []⟩ _ outside field filled other
  exact (leads.step refers entered).no_return ends (.here (next?_referenceTo named)) back rfl

end LayeredEnv.Value
