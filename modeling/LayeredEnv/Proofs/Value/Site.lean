import LayeredEnv.Value.Expansion

set_option autoImplicit false

namespace LayeredEnv.Value

/-- A text to be expanded, and the name whose value it is; a fallback belongs to no name. -/
structure Site where
  owner : Option String
  text : List Char
deriving DecidableEq, Repr

inductive Demand
  | given (text : List Char)
  | site (site : Site)
deriving DecidableEq, Repr

namespace Scope

def text? (scope : Scope) (name : String) : Option String :=
  (scope.variableText? name).or (scope.fieldText? name)

def demand (scope : Scope) (current : List Char) (target : Reference) : Demand :=
  match scope.lookup current target.name with
  | .verbatim value => .given value.toList
  | .pending value => .site ⟨some target.name, value.toList⟩
  | .unset =>
    if target.fallback.head? = some '$' then .site ⟨none, target.fallback⟩
    else .given target.fallback

end Scope

def Site.fresh (stack : List String) (site : Site) : Bool := site.owner.all (· ∉ stack)

variable {scope : Scope} {stack : List String} {current text rest : List Char} {target : Reference}

theorem expandRest_done (last : Piece.next? text = none) :
    expandRest scope stack current text = .ok [] := by
  rw [expandRest]
  split <;> simp_all

theorem expandRest_plain {c : Char} (first : Piece.next? text = some (.plain c, rest)) :
    expandRest scope stack current text = (expandRest scope stack current rest).map (c :: ·) := by
  rw [expandRest]
  split <;> simp_all

theorem expandRest_escaped {source : List Char}
    (first : Piece.next? text = some (.escaped source, rest)) :
    expandRest scope stack current text =
      (expandRest scope stack current rest).map (source ++ ·) := by
  rw [expandRest]
  split <;> simp_all

def Demand.enter (scope : Scope) (stack : List String) : Demand → Except (List String) (List Char)
  | .given value => .ok value
  | .site inner =>
    if inner.fresh stack then expandRest scope (stack ++ inner.owner.toList) inner.text inner.text
    else .error (stack ++ inner.owner.toList)

theorem expandRest_reference (first : Piece.next? text = some (.reference target, rest)) :
    expandRest scope stack current text =
      ((scope.demand current target).enter scope stack).bind fun value =>
        (expandRest scope stack current rest).map (value ++ ·) := by
  rw [expandRest]
  split
  next => simp_all
  next => simp_all
  next => simp_all
  next same =>
    rw [first] at same
    cases same
    rw [Scope.demand]
    split
    next found => simp [found, Demand.enter, bind]
    next found =>
      by_cases seen : target.name ∈ stack <;>
        simp [found, Demand.enter, Site.fresh, seen, bind, Except.bind]
    next found =>
      by_cases nested : target.fallback.head? = some '$' <;>
        simp [found, Demand.enter, Site.fresh, nested, bind]

theorem expandRest_given {value : List Char}
    (first : Piece.next? text = some (.reference target, rest))
    (demanded : scope.demand current target = .given value) :
    expandRest scope stack current text =
      (expandRest scope stack current rest).map (value ++ ·) := by
  rw [expandRest_reference first, demanded]
  rfl

theorem expandRest_site {site : Site}
    (first : Piece.next? text = some (.reference target, rest))
    (demanded : scope.demand current target = .site site) :
    expandRest scope stack current text =
      (if site.fresh stack then
        expandRest scope (stack ++ site.owner.toList) site.text site.text
      else .error (stack ++ site.owner.toList)).bind fun value =>
        (expandRest scope stack current rest).map (value ++ ·) := by
  rw [expandRest_reference first, demanded]
  rfl

theorem Scope.demand_owner {site : Site} {name : String}
    (demanded : scope.demand current target = .site site) (owned : name ∈ site.owner) :
    name = target.name ∧ scope.lookup current name = .pending (String.ofList site.text) := by
  rw [Scope.demand] at demanded
  split at demanded
  · cases demanded
  · cases demanded
    simp_all
  · split at demanded
    · cases demanded
      simp at owned
    · cases demanded

theorem Scope.text?_of_pending {name value : String}
    (pending : scope.lookup current name = .pending value) : scope.text? name = some value := by
  rw [Scope.lookup] at pending
  rw [Scope.text?]
  split at pending
  next held =>
    split at pending <;> simp_all
  next absent =>
    split at pending
    next held => split at pending <;> simp_all
    next => cases pending

theorem Scope.text_of_demand {site : Site} {name : String}
    (demanded : scope.demand current target = .site site) (owned : name ∈ site.owner) :
    scope.text? name = some (String.ofList site.text) :=
  text?_of_pending (demand_owner demanded owned).2

theorem Scope.demand_unowned {site : Site}
    (demanded : scope.demand current target = .site site) (unowned : site.owner = none) :
    site.text = target.fallback := by
  rw [Scope.demand] at demanded
  split at demanded
  · cases demanded
  · cases demanded
    cases unowned
  · split at demanded
    · cases demanded
      rfl
    · cases demanded

-- The measure is that of `expandRest`: a site either pushes a name that is not on the stack yet, or
-- is a fallback and shorter than the text around it.
theorem expandRest_induction (scope : Scope) {motive : List String → List Char → List Char → Prop}
    (done : ∀ stack current text, Piece.next? text = none → motive stack current text)
    (plain : ∀ stack current text c rest, Piece.next? text = some (.plain c, rest) →
      motive stack current rest → motive stack current text)
    (escaped : ∀ stack current text source rest,
      Piece.next? text = some (.escaped source, rest) →
      motive stack current rest → motive stack current text)
    (given : ∀ stack current text target rest value,
      Piece.next? text = some (.reference target, rest) →
      scope.demand current target = .given value →
      motive stack current rest → motive stack current text)
    (site : ∀ stack current text target rest site,
      Piece.next? text = some (.reference target, rest) →
      scope.demand current target = .site site →
      (site.fresh stack → motive (stack ++ site.owner.toList) site.text site.text) →
      motive stack current rest → motive stack current text)
    (stack : List String) (current text : List Char) : motive stack current text := by
  match first : Piece.next? text with
  | none => exact done stack current text first
  | some (.plain c, rest) =>
    have shorter := Piece.next?_length first
    exact plain stack current text c rest first
      (expandRest_induction scope done plain escaped given site stack current rest)
  | some (.escaped source, rest) =>
    have shorter := Piece.next?_length first
    exact escaped stack current text source rest first
      (expandRest_induction scope done plain escaped given site stack current rest)
  | some (.reference target, rest) =>
    have shorter := Piece.next?_length first
    have later := expandRest_induction scope done plain escaped given site stack current rest
    match demanded : scope.demand current target with
    | .given value => exact given stack current text target rest value first demanded later
    | .site inner =>
      refine site stack current text target rest inner first demanded (fun fresh => ?_) later
      match owned : inner.owner with
      | none =>
        have within := Piece.fallback_length first
        have same := Scope.demand_unowned demanded owned
        simp only [Option.toList_none, List.append_nil]
        exact expandRest_induction scope done plain escaped given site stack inner.text inner.text
      | some name =>
        have unseen : name ∉ stack := by simpa [Site.fresh, owned] using fresh
        have known := Scope.mem_names_of_pending (Scope.demand_owner demanded owned).2
        have pushed := Scope.unvisited_push known unseen
        exact expandRest_induction scope done plain escaped given site (stack ++ [name]) inner.text
          inner.text
termination_by (scope.unvisited stack, text.length)
decreasing_by
  · exact Prod.Lex.right _ shorter
  · exact Prod.Lex.right _ shorter
  · exact Prod.Lex.right _ shorter
  · exact Prod.Lex.right _ (same ▸ within)
  · exact Prod.Lex.left _ _ pushed

end LayeredEnv.Value
