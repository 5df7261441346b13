import LayeredEnv.Proofs.Value.Cycle
import Mathlib.Data.Finset.Card

set_option autoImplicit false

namespace LayeredEnv.Value

/-- A point of an expansion: the names whose values are being expanded, the text that is expanded
there, and what is left of it. -/
structure Point where
  stack : List String
  current : List Char
  text : List Char

inductive Move
  | on
  | enter (owner : Option String)
deriving DecidableEq, Repr

def Point.start (key : Option String) (raw : String) : Point :=
  ⟨key.toList, raw.toList, raw.toList⟩

def Piece.outcome (scope : Scope) (stack : List String) (current : List Char) :
    Piece → Except (List String) (List Char)
  | .plain c => .ok [c]
  | .escaped source => .ok source
  | .reference target => (scope.demand current target).enter scope stack

inductive Moves (scope : Scope) : Point → Move → Point → Prop
  | on {stack : List String} {current text rest value : List Char} {piece : Piece}
    (first : Piece.next? text = some (piece, rest))
    (replaced : piece.outcome scope stack current = .ok value) :
    Moves scope ⟨stack, current, text⟩ .on ⟨stack, current, rest⟩
  | enter {stack : List String} {current text rest : List Char} {target : Reference} {site : Site}
    (first : Piece.next? text = some (.reference target, rest))
    (demanded : scope.demand current target = .site site) (fresh : site.fresh stack = true) :
    Moves scope ⟨stack, current, text⟩ (.enter site.owner)
      ⟨stack ++ site.owner.toList, site.text, site.text⟩

inductive Walk (scope : Scope) : Point → List Move → Point → Prop
  | here (point : Point) : Walk scope point [] point
  | step {point next last : Point} {move : Move} {moves : List Move}
    (first : Moves scope point move next) (later : Walk scope next moves last) :
    Walk scope point (move :: moves) last

def Move.owner? : Move → Option String
  | .on => none
  | .enter owner => owner

def descents (moves : List Move) : List String := moves.filterMap Move.owner?

def fallbacks (moves : List Move) : Nat := moves.count (.enter none)

def Scope.longest (scope : Scope) : Nat :=
  ((scope.names.filterMap scope.text?).map String.length).max?.getD 0

def depthBound (scope : Scope) (raw : String) : Nat :=
  scope.names.length * (scope.longest + 1) + raw.length

def Piece.outcomeWith (enter : List String → List Char → ExceptT (List String) Option (List Char))
    (scope : Scope) (stack : List String) (current : List Char) :
    Piece → ExceptT (List String) Option (List Char)
  | .plain c => pure [c]
  | .escaped source => pure source
  | .reference target =>
    match scope.demand current target with
    | .given value => pure value
    | .site site =>
      if site.fresh stack then enter (stack ++ site.owner.toList) site.text
      else throw (stack ++ site.owner.toList)

/-- Expands the rest of a text `current` as `expandRest` does, but gives up where more steps are
nested than the budget allows. -/
def expandWithin (scope : Scope) : Nat → List String → List Char → List Char →
    ExceptT (List String) Option (List Char)
  | 0, _, _, _ => ExceptT.mk none
  | budget + 1, stack, current, text =>
    match Piece.next? text with
    | none => pure []
    | some (piece, rest) => do
      let value ← piece.outcomeWith (fun stack text => expandWithin scope budget stack text text)
        scope stack current
      return value ++ (← expandWithin scope budget stack current rest)

variable {scope : Scope} {key : Option String} {point next last : Point} {move : Move}
  {moves more : List Move}

structure Proper (scope : Scope) (key : Option String) (point : Point) : Prop where
  distinct : point.stack.Nodup
  known : ∀ name ∈ point.stack, name ∈ key ∨ name ∈ scope.names
  inside : point.text.length ≤ point.current.length

theorem proper_start (scope : Scope) (key : Option String) (raw : String) :
    Proper scope key (.start key raw) where
  distinct := by cases key <;> simp [Point.start]
  known := fun name member => .inl (Option.mem_toList.mp member)
  inside := Nat.le_refl _

theorem Moves.stack (moved : Moves scope point move next) :
    next.stack = point.stack ++ move.owner?.toList := by
  cases moved with
  | on => simp [Move.owner?]
  | enter => rfl

theorem Moves.text_shorter (moved : Moves scope point move next) (unowned : move.owner? = none) :
    next.text.length < point.text.length := by
  cases moved with
  | on first => exact Piece.next?_length first
  | enter first demanded =>
    rw [Scope.demand_unowned demanded unowned]
    exact Piece.fallback_length first

theorem Moves.descent {name : String} (moved : Moves scope point move next)
    (owned : move.owner? = some name) :
    name ∈ scope.names ∧ name ∉ point.stack ∧
      scope.text? name = some (String.ofList next.text) := by
  cases moved with
  | on => cases owned
  | enter first demanded fresh =>
    rw [Move.owner?] at owned
    obtain ⟨rfl, pending⟩ := Scope.demand_owner demanded owned
    exact ⟨Scope.mem_names_of_pending pending, by simpa [Site.fresh, owned] using fresh,
      Scope.text_of_demand demanded owned⟩

theorem Moves.behind (moved : Moves scope point .on next) : next.current = point.current := by
  cases moved
  rfl

theorem Moves.entered {owner : Option String} (moved : Moves scope point (.enter owner) next) :
    next.current = next.text := by
  cases moved
  rfl

theorem Moves.proper (moved : Moves scope point move next) (proper : Proper scope key point) :
    Proper scope key next := by
  obtain ⟨distinct, known, inside⟩ := proper
  have pushed := moved.stack
  have within : next.text.length ≤ next.current.length := by
    cases move with
    | on =>
      have shorter := moved.text_shorter rfl
      rw [moved.behind]
      omega
    | enter owner => rw [moved.entered]
  cases owned : move.owner? with
  | none =>
    rw [owned, Option.toList_none, List.append_nil] at pushed
    exact ⟨by rwa [pushed], by rwa [pushed], within⟩
  | some name =>
    obtain ⟨listed, unseen, _⟩ := moved.descent owned
    rw [owned, Option.toList_some] at pushed
    refine ⟨?_, fun other member => ?_, within⟩
    · rw [pushed, ← List.concat_eq_append]
      exact distinct.concat unseen
    · rw [pushed, List.mem_append, List.mem_singleton] at member
      rcases member with seen | rfl
      · exact known other seen
      · exact .inr listed

theorem Scope.length_le_longest {name value : String} (stands : scope.text? name = some value)
    (listed : name ∈ scope.names) : value.length ≤ scope.longest := by
  refine List.le_max?_getD_of_mem (List.mem_map_of_mem ?_)
  exact List.mem_filterMap.mpr ⟨name, listed, stands⟩

/-- How far an expansion may still go from a point: a text as long as any for each name that is not
on the stack, and what is left of the text at hand. -/
def weight (scope : Scope) (point : Point) : Nat :=
  scope.unvisited point.stack * (scope.longest + 1) + point.text.length

theorem Moves.lighter (moved : Moves scope point move next) :
    weight scope next < weight scope point := by
  have pushed := moved.stack
  cases owned : move.owner? with
  | none =>
    have shorter := moved.text_shorter owned
    rw [owned, Option.toList_none, List.append_nil] at pushed
    rw [weight, weight, pushed]
    omega
  | some name =>
    -- The name pays for its text, however much is left of the text around it.
    obtain ⟨listed, unseen, stands⟩ := moved.descent owned
    rw [owned, Option.toList_some] at pushed
    have fewer := Scope.unvisited_push listed unseen
    have short : next.text.length ≤ scope.longest := by
      simpa using Scope.length_le_longest stands listed
    calc weight scope next
        < (scope.unvisited (point.stack ++ [name]) + 1) * (scope.longest + 1) := by
          rw [weight, pushed, Nat.succ_mul]
          omega
      _ ≤ scope.unvisited point.stack * (scope.longest + 1) := Nat.mul_le_mul_right _ fewer
      _ ≤ weight scope point := Nat.le_add_right _ _

theorem Walk.proper (walk : Walk scope point moves last) (proper : Proper scope key point) :
    Proper scope key last := by
  induction walk with
  | here => exact proper
  | step first _ ih => exact ih (first.proper proper)

theorem Walk.stack (walk : Walk scope point moves last) :
    last.stack = point.stack ++ descents moves := by
  induction walk with
  | here => simp [descents]
  | @step _ _ _ move _ first _ ih =>
    rw [ih, first.stack, List.append_assoc, descents, descents, List.filterMap_cons]
    cases move.owner? <;> rfl

theorem Walk.length (walk : Walk scope point moves last) :
    moves.length + weight scope last ≤ weight scope point := by
  induction walk with
  | here => simp
  | step first _ ih =>
    have lighter := first.lighter
    rw [List.length_cons]
    omega

theorem Walk.shorter (walk : Walk scope point moves last) (proper : Proper scope key point)
    (level : descents moves = []) :
    last.current.length + fallbacks moves ≤ point.current.length := by
  induction walk with
  | here => simp [fallbacks]
  | @step _ next _ move moves first _ ih =>
    match move with
    | .on =>
      have later := ih (first.proper proper) level
      rw [first.behind] at later
      simpa [fallbacks] using later
    | .enter none =>
      have later := ih (first.proper proper) level
      have shorter := first.text_shorter rfl
      have inside := proper.inside
      simp only [fallbacks, List.count_cons_self] at later ⊢
      rw [first.entered] at later
      omega
    | .enter (some name) => simp [descents, Move.owner?] at level

theorem Proper.depth (proper : Proper scope key point) :
    point.stack.length ≤ (key.toList ++ scope.names).toFinset.card := by
  rw [← List.toFinset_card_of_nodup proper.distinct]
  refine Finset.card_le_card fun name member => ?_
  simpa using proper.known name (by simpa using member)

theorem weight_start (scope : Scope) (key : Option String) (raw : String) :
    weight scope (.start key raw) ≤ depthBound scope raw := by
  have all : scope.unvisited key.toList ≤ scope.names.length := List.countP_le_length
  rw [weight, depthBound, ← String.length_toList]
  exact Nat.add_le_add_right (Nat.mul_le_mul_right _ all) _

theorem expandRest_piece {stack : List String} {current text rest : List Char} {piece : Piece}
    (first : Piece.next? text = some (piece, rest)) :
    expandRest scope stack current text = (piece.outcome scope stack current).bind fun value =>
      (expandRest scope stack current rest).map (value ++ ·) := by
  cases piece with
  | plain c => exact expandRest_plain first
  | escaped source => exact expandRest_escaped first
  | reference target => exact expandRest_reference first

theorem run_outcomeWith {enter : List String → List Char → ExceptT (List String) Option (List Char)}
    {stack : List String} {current text rest : List Char} {piece : Piece}
    (first : Piece.next? text = some (piece, rest))
    (entered : ∀ owner next, Moves scope ⟨stack, current, text⟩ (.enter owner) next →
      (enter next.stack next.text).run = some (expandRest scope next.stack next.text next.text)) :
    (piece.outcomeWith enter scope stack current).run =
      some (piece.outcome scope stack current) := by
  cases piece with
  | plain c => rfl
  | escaped source => rfl
  | reference target =>
    rw [Piece.outcomeWith, Piece.outcome]
    cases demanded : scope.demand current target with
    | given value => rfl
    | site site =>
      by_cases fresh : site.fresh stack = true
      · simpa [Demand.enter, fresh] using entered _ _ (.enter first demanded fresh)
      · simp [Demand.enter, fresh]

theorem expandWithin_of_walks (budget : Nat) (point : Point)
    (shallow : ∀ moves last, Walk scope point moves last → moves.length < budget) :
    (expandWithin scope budget point.stack point.current point.text).run =
      some (expandRest scope point.stack point.current point.text) := by
  induction budget generalizing point with
  | zero => exact absurd (shallow [] point (.here point)) (Nat.lt_irrefl 0)
  | succ budget ih =>
    have within {move : Move} {next : Point} (moved : Moves scope point move next) :=
      ih next fun moves last walk => Nat.lt_of_succ_lt_succ (shallow _ _ (.step moved walk))
    obtain ⟨stack, current, text⟩ := point
    rw [expandWithin]
    match first : Piece.next? text with
    | none => rw [expandRest_done first]; rfl
    | some (piece, rest) =>
      have replacement : (piece.outcomeWith
          (fun stack text => expandWithin scope budget stack text text) scope stack current).run =
            some (piece.outcome scope stack current) :=
        run_outcomeWith first fun _ _ moved => moved.entered ▸ within moved
      rw [expandRest_piece first]
      simp only [ExceptT.run_bind, replacement, Option.bind_eq_bind, Option.bind_some]
      cases replaced : piece.outcome scope stack current with
      | error chain => rfl
      | ok value =>
        have later := within (.on first replaced)
        simp only [later, Option.bind_some]
        cases expandRest scope stack current rest <;> rfl

/-- Wherever an expansion has got to, its stack is the key and the names entered on the way: distinct
ones, and none but the key and names of the scope, so that it is no higher than there are such names.
On the way on to the next descent the fallbacks get shorter one by one. No way is longer than the
bound, and within it the expansion is done, a cycle or not. -/
theorem expansion_is_bounded (scope : Scope) (key : Option String) (raw : String) :
    (∀ moves point, Walk scope (.start key raw) moves point →
      point.stack = key.toList ++ descents moves ∧ point.stack.Nodup ∧
      (∀ name ∈ point.stack, name ∈ key ∨ name ∈ scope.names) ∧
      point.stack.length ≤ (key.toList ++ scope.names).toFinset.card ∧
      moves.length ≤ depthBound scope raw ∧
      ∀ more last, Walk scope point more last → descents more = [] →
        last.stack = point.stack ∧
          last.current.length + fallbacks more ≤ point.current.length) ∧
    (expandWithin scope (depthBound scope raw + 1) key.toList raw.toList raw.toList).run.map
      (·.map String.ofList) = some (expand scope key raw) := by
  have bounded (moves : List Move) (point : Point) (walk : Walk scope (.start key raw) moves point) :
      moves.length ≤ depthBound scope raw := by
    have spent := walk.length
    have most := weight_start scope key raw
    omega
  refine ⟨fun moves point walk => ?_, ?_⟩
  · have proper := walk.proper (proper_start scope key raw)
    refine ⟨walk.stack, proper.distinct, proper.known, proper.depth, bounded moves point walk, ?_⟩
    intro more last onward level
    exact ⟨by rw [onward.stack, level, List.append_nil], onward.shorter proper level⟩
  · have within := expandWithin_of_walks (depthBound scope raw + 1) (.start key raw)
      fun moves last walk => Nat.lt_succ_of_le (bounded moves last walk)
    simp only [Point.start] at within
    rw [within, Option.map_some, expand]

theorem fallback_loopScope :
    Moves loopScope (.start (some "A") "${X:-$B}") (.enter none)
      ⟨["A"], "$B".toList, "$B".toList⟩ := by
  have outer : Piece.next? "${X:-$B}".toList = some (.reference ⟨"X", "$B".toList⟩, []) := rfl
  have falls : loopScope.demand "${X:-$B}".toList ⟨"X", "$B".toList⟩ =
      .site ⟨none, "$B".toList⟩ := by decide
  exact .enter outer falls rfl

theorem descent_loopScope :
    Walk loopScope ⟨["A"], "$B".toList, "$B".toList⟩ [.enter (some "B"), .on, .enter (some "C")]
      ⟨["A", "B", "C"], "${B}".toList, "${B}".toList⟩ := by
  have bare : Piece.next? "$B".toList = some (.reference ⟨"B", []⟩, []) := rfl
  have down : loopScope.demand "$B".toList ⟨"B", []⟩ = .site ⟨"B", "b${C}".toList⟩ := by decide
  have plain : Piece.next? "b${C}".toList = some (.plain 'b', "${C}".toList) := rfl
  have inner : Piece.next? "${C}".toList = some (.reference ⟨"C", []⟩, []) := rfl
  have further : loopScope.demand "b${C}".toList ⟨"C", []⟩ = .site ⟨"C", "${B}".toList⟩ := by decide
  exact .step (.enter bare down rfl) (.step (.on plain rfl) (.step (.enter inner further rfl)
    (.here _)))

theorem loopScope_bounded :
    ["A", "B", "C"].Nodup ∧
      ["A", "B", "C"].length ≤ (["A"] ++ loopScope.names).toFinset.card ∧
      "$B".toList.length + 1 ≤ "${X:-$B}".toList.length ∧
      depthBound loopScope "${X:-$B}" = 44 ∧
      (expandWithin loopScope 45 ["A"] "${X:-$B}".toList "${X:-$B}".toList).run.map
        (·.map String.ofList) = some (.error ["A", "B", "C", "B"]) := by
  have bound : depthBound loopScope "${X:-$B}" = 44 := by decide
  obtain ⟨walks, done⟩ := expansion_is_bounded loopScope (some "A") "${X:-$B}"
  obtain ⟨-, distinct, -, high, -⟩ := walks _ _ (.step fallback_loopScope descent_loopScope)
  obtain ⟨-, -, -, -, -, onward⟩ := walks _ _ (.here _)
  have shorter := onward _ _ (.step fallback_loopScope (.here _)) rfl
  rw [bound, expand_loopScope] at done
  exact ⟨distinct, high, shorter.2, bound, done⟩

end LayeredEnv.Value
