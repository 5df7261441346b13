import LayeredEnv.Proofs.Value.Plain

set_option autoImplicit false

namespace LayeredEnv.Value

inductive Refers : List Char → Reference → Prop
  | here {text rest : List Char} {target : Reference}
    (first : Piece.next? text = some (.reference target, rest)) : Refers text target
  | later {text rest : List Char} {piece : Piece} {target : Reference}
    (first : Piece.next? text = some (piece, rest)) (refers : Refers rest target) :
    Refers text target

inductive Leads (scope : Scope) : Site → Site → Prop
  | refl (site : Site) : Leads scope site site
  | step {start site inner : Site} {target : Reference} (leads : Leads scope start site)
    (refers : Refers site.text target) (demanded : scope.demand site.text target = .site inner) :
    Leads scope start inner

theorem Plain.not_refers {text : List Char} (plain : Plain text) (target : Reference) :
    ¬ Refers text target := by
  intro refers
  induction refers with
  | here first =>
    cases plain with
    | nil => cases first
    | cons same _ =>
      rw [first] at same
      cases same
  | later first _ ih =>
    cases plain with
    | nil => cases first
    | cons same later =>
      rw [first] at same
      cases same
      exact ih later

theorem Plain.leads {scope : Scope} {start site : Site} (plain : Plain start.text)
    (leads : Leads scope start site) : site = start := by
  induction leads with
  | refl => rfl
  | step _ refers _ ih =>
    subst ih
    exact absurd refers (plain.not_refers _)

theorem Refers.next {text rest : List Char} {piece : Piece} {target : Reference}
    (refers : Refers text target) (first : Piece.next? text = some (piece, rest)) :
    piece = .reference target ∨ Refers rest target := by
  cases refers with
  | here found =>
    rw [first] at found
    cases found
    exact .inl rfl
  | later found later =>
    rw [first] at found
    cases found
    exact .inr later

theorem Unrolls.enter {scope : Scope} {depth : Nat} {current text value : List Char}
    {target : Reference} {inner : Site} (unrolls : Unrolls scope depth current text value)
    (refers : Refers text target) (demanded : scope.demand current target = .site inner) :
    ∃ less < depth, ∃ result, Unrolls scope less inner.text inner.text result := by
  induction unrolls with
  | done last =>
    cases refers with
    | here first => simp [last] at first
    | later first _ => simp [last] at first
  | plain first _ ih =>
    rcases refers.next first with same | later
    · cases same
    · obtain ⟨less, below, inside⟩ := ih later demanded
      exact ⟨less, by omega, inside⟩
  | escaped first _ ih =>
    rcases refers.next first with same | later
    · cases same
    · obtain ⟨less, below, inside⟩ := ih later demanded
      exact ⟨less, by omega, inside⟩
  | given first given _ ih =>
    rcases refers.next first with same | later
    · cases same
      rw [given] at demanded
      cases demanded
    · obtain ⟨less, below, inside⟩ := ih later demanded
      exact ⟨less, by omega, inside⟩
  | @site depth _ _ _ value _ _ _ first entered inside _ _ ih =>
    rcases refers.next first with same | later
    · cases same
      rw [entered] at demanded
      cases demanded
      exact ⟨depth, by omega, value, inside⟩
    · obtain ⟨less, below, inside⟩ := ih later demanded
      exact ⟨less, by omega, inside⟩

theorem Leads.ends {scope : Scope} {start site : Site} {depth : Nat} {value : List Char}
    (leads : Leads scope start site) (unrolls : Unrolls scope depth start.text start.text value) :
    ∃ less ≤ depth, ∃ result, Unrolls scope less site.text site.text result := by
  induction leads with
  | refl => exact ⟨depth, Nat.le_refl _, value, unrolls⟩
  | step _ refers demanded ih =>
    obtain ⟨less, within, result, inside⟩ := ih
    obtain ⟨least, below, result, inside⟩ := inside.enter refers demanded
    exact ⟨least, by omega, result, inside⟩

theorem Leads.no_return {scope : Scope} {start site inner : Site} {target : Reference}
    {value : List Char} (leads : Leads scope start site)
    (ends : unrollRest scope start.text start.text = some value)
    (refers : Refers site.text target) (demanded : scope.demand site.text target = .site inner) :
    inner.text ≠ start.text := by
  intro back
  classical
  have found : ∃ depth, ∃ value, Unrolls scope depth start.text start.text value :=
    (unrolls_of_unrollRest ends).imp fun _ unrolls => ⟨value, unrolls⟩
  -- A way back would lead to an expansion of fewer steps than the one that has the fewest.
  obtain ⟨value, unrolls⟩ := Nat.find_spec found
  obtain ⟨less, within, result, inside⟩ := leads.ends unrolls
  obtain ⟨least, below, again⟩ := inside.enter refers demanded
  rw [back] at again
  exact Nat.find_min found (by omega : least < Nat.find found) again

/-- Two scopes agree on the references of a site if both make the same of each of them, and what is
made of it is good again, or if both answer it alike. -/
def AgreeAt (left right : Scope) (good : Site → Prop) (site : Site) : Prop :=
  ∀ target, Refers site.text target →
    (left.demand site.text target = right.demand site.text target ∧
      ∀ inner, left.demand site.text target = .site inner → good inner) ∨
    (left.demand site.text target).answer (unrollRest left) =
      (right.demand site.text target).answer (unrollRest right)

theorem AgreeAt.symm {left right : Scope} {good : Site → Prop} {site : Site}
    (agree : AgreeAt left right good site) : AgreeAt right left good site := by
  intro target refers
  rcases agree target refers with ⟨same, next⟩ | same
  · exact .inl ⟨same.symm, same ▸ next⟩
  · exact .inr same.symm

variable {left right : Scope} {good : Site → Prop}

theorem unrollRest_of_agree (agree : ∀ site, good site → AgreeAt left right good site)
    {depth : Nat} {site : Site} {text value : List Char} (start : good site)
    (within : ∀ target, Refers text target → Refers site.text target)
    (unrolls : Unrolls left depth site.text text value) :
    unrollRest right site.text text = some value := by
  generalize found : site.text = current at unrolls
  induction unrolls generalizing site with
  | done last => rw [unrollRest_eq, unrollStep, last]
  | plain first _ ih =>
    rw [unrollRest_eq, unrollStep, first]
    simp [ih start (fun target refers => within target (.later first refers)) found]
  | escaped first _ ih =>
    rw [unrollRest_eq, unrollStep, first]
    simp [ih start (fun target refers => within target (.later first refers)) found]
  | @given depth current text rest value tail target first demanded _ ih =>
    subst found
    have later := ih start (fun target refers => within target (.later first refers)) rfl
    have answered : (right.demand site.text target).answer (unrollRest right) = some value := by
      rcases agree site start target (within target (.here first)) with ⟨same, _⟩ | same
      · rw [← same, demanded, Demand.answer]
      · rw [← same, demanded, Demand.answer]
    rw [unrollRest_reference first, answered, later]
    rfl
  | @site depth current text rest value tail target inner first demanded inside _ entered ih =>
    subst found
    have later := ih start (fun target refers => within target (.later first refers)) rfl
    have answered : (right.demand site.text target).answer (unrollRest right) = some value := by
      rcases agree site start target (within target (.here first)) with ⟨same, next⟩ | same
      · rw [← same, demanded, Demand.answer]
        exact entered (next inner demanded) (fun _ refers => refers) rfl
      · rw [← same, demanded, Demand.answer]
        exact unrollRest_of_unrolls inside
    rw [unrollRest_reference first, answered, later]
    rfl

theorem unrollRest_congr (agree : ∀ site, good site → AgreeAt left right good site) {site : Site}
    (start : good site) :
    unrollRest left site.text site.text = unrollRest right site.text site.text := by
  apply Option.ext
  intro value
  constructor
  · intro ends
    obtain ⟨depth, unrolls⟩ := unrolls_of_unrollRest ends
    exact unrollRest_of_agree agree start (fun _ refers => refers) unrolls
  · intro ends
    obtain ⟨depth, unrolls⟩ := unrolls_of_unrollRest ends
    exact unrollRest_of_agree (fun site kept => (agree site kept).symm) start
      (fun _ refers => refers) unrolls

theorem Scope.demand_congr {left right : Scope} {target : Reference}
    (vars : left.vars[target.name]? = right.vars[target.name]?)
    (field : left.fields.get? target.name = right.fields.get? target.name) (current : List Char) :
    left.demand current target = right.demand current target := by
  simp only [demand, lookup, variableText?, fieldText?, vars, field]

theorem Scope.lookup_of_not_mem {scope : Scope} {name : String} (absent : name ∉ scope.vars)
    (current : List Char) :
    scope.lookup current name =
      match scope.fieldText? name with
      | some value => if value.toList = current then .unset else .pending value
      | none => .unset := by
  have unset := Std.ExtTreeMap.getElem?_eq_none absent
  cases text : scope.fieldText? name <;> simp [lookup, variableText?, unset, text]

theorem Scope.demand_of_empty (scope : Scope) (current : List Char) {target : Reference}
    {field : Json} (absent : target.name ∉ scope.vars)
    (found : scope.fields.get? target.name = some field) (empty : field.render = "") :
    scope.demand current target =
      if target.fallback.head? = some '$' then .site ⟨none, target.fallback⟩
      else .given target.fallback := by
  have text : scope.fieldText? target.name = none := by simp [fieldText?, found, empty]
  rw [demand, lookup_of_not_mem absent, text]

theorem Scope.demand_of_filled (scope : Scope) {current : List Char} {target : Reference}
    {field : Json} (absent : target.name ∉ scope.vars)
    (found : scope.fields.get? target.name = some field) (filled : field.render ≠ "")
    (apart : current ≠ field.render.toList) :
    scope.demand current target = .site ⟨some target.name, field.render.toList⟩ := by
  have text : scope.fieldText? target.name = some field.render := by
    simp [fieldText?, found, filled]
  rw [demand, lookup_of_not_mem absent, text]
  simp only [if_neg (Ne.symm apart)]

theorem Scope.demand_of_text (scope : Scope) {current : List Char} {target : Reference}
    {raw : String} (absent : target.name ∉ scope.vars)
    (found : scope.fields.get? target.name = some (.str raw)) (filled : raw ≠ "")
    (apart : current ≠ raw.toList) :
    scope.demand current target = .site ⟨some target.name, raw.toList⟩ := by
  have text : (Json.str raw).render = raw := by rw [Json.render]
  have demanded := scope.demand_of_filled absent found (text ▸ filled) (text ▸ apart)
  rw [text] at demanded
  exact demanded

end LayeredEnv.Value
