import LayeredEnv.Proofs.Value.Mention
import Mathlib.Data.List.Nodup

set_option autoImplicit false

namespace LayeredEnv.Value

inductive Trail (scope : Scope) : List Char → List String → Prop
  | nil (text : List Char) : Trail scope text []
  | cons {text : List Char} {name value : String} {later : List String}
    (mentions : Mentions text name) (stands : scope.text? name = some value)
    (trail : Trail scope value.toList later) : Trail scope text (name :: later)

def Closes (stack names : List String) : Prop :=
  ∃ earlier last, names = earlier ++ [last] ∧ last ∈ stack ++ earlier ∧
    (stack.Nodup → (stack ++ earlier).Nodup)

/-- The chain goes on from the stack along the text, up to the first name that comes up again. -/
def Reports (scope : Scope) (stack : List String) (text : List Char) (chain : List String) : Prop :=
  ∃ names, chain = stack ++ names ∧ Trail scope text names ∧ Closes stack names

variable {scope : Scope} {stack chain : List String} {current text rest : List Char}
  {target : Reference} {site : Site}

theorem Trail.mono {inner : List Char} {names : List String} (trail : Trail scope inner names)
    (within : ∀ name, Mentions inner name → Mentions text name) : Trail scope text names := by
  cases trail with
  | nil => exact .nil text
  | cons mentions stands later => exact .cons (within _ mentions) stands later

theorem Reports.mono {inner : List Char} (reports : Reports scope stack inner chain)
    (within : ∀ name, Mentions inner name → Mentions text name) :
    Reports scope stack text chain := by
  obtain ⟨names, same, trail, closes⟩ := reports
  exact ⟨names, same, trail.mono within, closes⟩

theorem Reports.of_rest {piece : Piece} (reports : Reports scope stack rest chain)
    (first : Piece.next? text = some (piece, rest)) : Reports scope stack text chain :=
  reports.mono fun _ mentions => mentions.of_rest first

theorem Closes.push {names : List String} {name : String} (fresh : name ∉ stack)
    (closes : Closes (stack ++ [name]) names) : Closes stack (name :: names) := by
  obtain ⟨earlier, last, rfl, member, distinct⟩ := closes
  refine ⟨name :: earlier, last, rfl, by simpa using member, fun apart => ?_⟩
  have pushed : (stack ++ [name]).Nodup := by
    rw [← List.concat_eq_append]
    exact apart.concat fresh
  simpa using distinct pushed

theorem Reports.of_site (first : Piece.next? text = some (.reference target, rest))
    (demanded : scope.demand current target = .site site) (fresh : site.fresh stack = true)
    (reports : Reports scope (stack ++ site.owner.toList) site.text chain) :
    Reports scope stack text chain := by
  cases owned : site.owner with
  | none =>
    -- A fallback pushes nothing, and what it mentions is mentioned around it.
    rw [owned, Option.toList_none, List.append_nil, Scope.demand_unowned demanded owned] at reports
    exact reports.mono fun _ mentions => mentions.of_fallback first
  | some name =>
    obtain ⟨rfl, _⟩ := Scope.demand_owner demanded owned
    have unseen : target.name ∉ stack := by simpa [Site.fresh, owned] using fresh
    rw [owned, Option.toList_some] at reports
    obtain ⟨names, rfl, trail, closes⟩ := reports
    refine ⟨target.name :: names, by simp, ?_, closes.push unseen⟩
    refine .cons (mentions_target first) (Scope.text_of_demand demanded owned) ?_
    rwa [String.toList_ofList]

theorem reports_seen (first : Piece.next? text = some (.reference target, rest))
    (demanded : scope.demand current target = .site site) (seen : ¬ site.fresh stack = true) :
    Reports scope stack text (stack ++ site.owner.toList) := by
  cases owned : site.owner with
  | none => simp [Site.fresh, owned] at seen
  | some name =>
    obtain ⟨rfl, _⟩ := Scope.demand_owner demanded owned
    have member : target.name ∈ stack := by simpa [Site.fresh, owned] using seen
    refine ⟨[target.name], rfl, ?_, [], target.name, rfl, by simpa using member, by simp⟩
    exact .cons (mentions_target first) (Scope.text_of_demand demanded owned) (.nil _)

theorem reports_of_error (failed : expandRest scope stack current text = .error chain) :
    Reports scope stack text chain := by
  induction stack, current, text using expandRest_induction scope with
  | done stack current text last =>
    rw [expandRest_done last] at failed
    cases failed
  | plain stack current text c rest first ih =>
    rw [expandRest_plain first, map_eq_error_iff] at failed
    exact (ih failed).of_rest first
  | escaped stack current text source rest first ih =>
    rw [expandRest_escaped first, map_eq_error_iff] at failed
    exact (ih failed).of_rest first
  | given stack current text target rest value first demanded ih =>
    rw [expandRest_given first demanded, map_eq_error_iff] at failed
    exact (ih failed).of_rest first
  | site stack current text target rest site first demanded inner later =>
    rw [expandRest_site first demanded, bind_eq_error_iff] at failed
    rcases failed with entered | ⟨value, _, failed⟩
    next =>
      by_cases fresh : site.fresh stack = true
      next =>
        rw [if_pos fresh] at entered
        exact .of_site first demanded fresh (inner fresh entered)
      next =>
        rw [if_neg fresh] at entered
        cases entered
        exact reports_seen first demanded fresh
    next =>
      rw [map_eq_error_iff] at failed
      exact (later failed).of_rest first

/-- A reported chain starts with the key, if there is one, and goes from text to text by names that
these mention. No name comes up twice before the last one, which is one of those before it. -/
theorem cycle_is_real (scope : Scope) (key : Option String) (raw : String) (chain : List String)
    (failed : expand scope key raw = .error chain) :
    (∃ names, chain = key.toList ++ names ∧ Trail scope raw.toList names) ∧
      ∃ earlier last, chain = earlier ++ [last] ∧ earlier.Nodup ∧ earlier.count last = 1 := by
  rw [expand, map_eq_error_iff] at failed
  obtain ⟨names, same, trail, earlier, last, rfl, member, distinct⟩ := reports_of_error failed
  have apart : (key.toList ++ earlier).Nodup := distinct (by cases key <;> simp)
  refine ⟨⟨_, same, trail⟩, key.toList ++ earlier, last, by rw [same, List.append_assoc], apart, ?_⟩
  rw [apart.count, if_pos member]

def loopScope : Scope where
  vars := Variables.ofList [("C", "${B}")]
  fields := [("A", .str "${X:-$B}"), ("B", .str "b${C}"), ("C", .str "c")]

theorem expand_loopScope :
    expand loopScope (some "A") "${X:-$B}" = .error ["A", "B", "C", "B"] := by
  have outer : Piece.next? "${X:-$B}".toList = some (.reference ⟨"X", "$B".toList⟩, []) := rfl
  have falls : loopScope.demand "${X:-$B}".toList ⟨"X", "$B".toList⟩ =
      .site ⟨none, "$B".toList⟩ := by decide
  have bare : Piece.next? "$B".toList = some (.reference ⟨"B", []⟩, []) := rfl
  have down : loopScope.demand "$B".toList ⟨"B", []⟩ = .site ⟨"B", "b${C}".toList⟩ := by decide
  have plain : Piece.next? "b${C}".toList = some (.plain 'b', "${C}".toList) := rfl
  have inner : Piece.next? "${C}".toList = some (.reference ⟨"C", []⟩, []) := rfl
  have further : loopScope.demand "b${C}".toList ⟨"C", []⟩ = .site ⟨"C", "${B}".toList⟩ := by decide
  have last : Piece.next? "${B}".toList = some (.reference ⟨"B", []⟩, []) := rfl
  have back : loopScope.demand "${B}".toList ⟨"B", []⟩ = .site ⟨"B", "b${C}".toList⟩ := by decide
  rw [expand, expandRest_site outer falls, if_pos (by decide), expandRest_site bare down,
    if_pos (by decide), expandRest_plain plain, expandRest_site inner further, if_pos (by decide),
    expandRest_site last back, if_neg (by decide)]
  rfl

theorem loop_behind_fallback_is_real :
    expand loopScope (some "A") "${X:-$B}" = .error ["A", "B", "C", "B"] ∧
      (∃ names, ["A", "B", "C", "B"] = ["A"] ++ names ∧
        Trail loopScope "${X:-$B}".toList names) ∧
      ∃ earlier last, ["A", "B", "C", "B"] = earlier ++ [last] ∧ earlier.Nodup ∧
        earlier.count last = 1 :=
  ⟨expand_loopScope, cycle_is_real loopScope (some "A") "${X:-$B}" _ expand_loopScope⟩

end LayeredEnv.Value
