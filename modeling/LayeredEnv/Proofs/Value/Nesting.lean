import LayeredEnv.Proofs.Value.Substitution

set_option autoImplicit false

namespace LayeredEnv.Value

variable {scope : Scope} {name : String}

theorem toList_fallbackChain_cons (name : String) (more : List String) (last : String) :
    (fallbackChain (name :: more) last).toList = '$' :: '\x7b' :: (name.toList ++
      ((fallbackPart (fallbackChain more last)).toList ++ ['\x7d'])) := by
  simp [fallbackChain]

theorem next?_fallbackChain {more : List String} {last : String} (named : IsName name)
    (others : ∀ other ∈ more, IsName other) (flat : Flat last)
    (shallow : more.length ≤ Reference.nesting) :
    Piece.next? (fallbackChain (name :: more) last).toList =
      some (.reference ⟨name, (fallbackChain more last).toList⟩, []) := by
  rw [toList_fallbackChain_cons]
  apply Piece.next?_dollar
  rw [fallbackPart]
  split
  next empty =>
    have ends : Ends ['\x7d'] := by
      intro c head
      cases head
      decide
    rw [empty]
    exact Reference.read?_name named (.inr rfl) ends
  next filled =>
    have closed := Reference.takeFallback_fallbackChain others flat shallow []
    rw [String.toList_append, List.append_assoc]
    exact Reference.read?_defaulted named (by decide)
      (fun none => filled (String.toList_eq_nil_iff.mp none)) closed

theorem expandRest_fallbackChain {names : List String} {last : String}
    (named : ∀ name ∈ names, IsName name) (short : names.length ≤ Reference.nesting + 1)
    (flat : Flat last)
    (values : ∀ name ∈ names, ∀ value ∈ scope.text? name, '$' ∉ value.toList) :
    expandRest scope [] (fallbackChain names last).toList (fallbackChain names last).toList =
      .ok ((names.findSome? scope.text?).getD last).toList := by
  induction names with
  | nil => exact (plain_of_no_dollar flat.1).expandRest scope [] _
  | cons name more ih =>
    have others : ∀ other ∈ more, IsName other :=
      fun other member => named other (List.mem_cons_of_mem _ member)
    have shallow : more.length ≤ Reference.nesting := Nat.le_of_succ_le_succ short
    have first := next?_fallbackChain (named name List.mem_cons_self) others flat shallow
    have entered : (scope.demand (fallbackChain (name :: more) last).toList
        ⟨name, (fallbackChain more last).toList⟩).enter scope [] =
          .ok (((name :: more).findSome? scope.text?).getD last).toList := by
      cases stands : scope.text? name with
      | some value =>
        have literal := values name List.mem_cons_self value stands
        rw [List.findSome?_cons_of_isSome (by simp [stands]), stands]
        exact Scope.enter_of_text? stands literal (by simp [toList_fallbackChain_cons])
          List.not_mem_nil
      | none =>
        rw [Scope.enter_of_unset stands, List.findSome?_cons_of_isNone (by simp [stands])]
        cases more with
        | nil =>
          exact if_neg fun head => flat.1 (List.mem_of_mem_head? head)
        | cons next more =>
          rw [if_pos (by simp [toList_fallbackChain_cons])]
          exact ih others (by simp only [List.length_cons] at short ⊢; omega) fun other member =>
            values other (List.mem_cons_of_mem _ member)
    rw [expandRest_reference first, entered, Plain.nil.expandRest]
    simp [Except.bind, Except.map]

/-- Up to four references nested as fallbacks give the value of the first name that has one, from
the outermost on, or else the last text; nothing of their spelling is left over. -/
theorem fallbacks_tried_in_turn (scope : Scope) (names : List String) (last : String)
    (named : ∀ name ∈ names, IsName name) (short : names.length ≤ Reference.nesting + 1)
    (flat : Flat last)
    (values : ∀ name ∈ names, ∀ value ∈ scope.text? name, '$' ∉ value.toList) :
    expand scope none (fallbackChain names last) =
      .ok ((names.findSome? scope.text?).getD last) := by
  rw [expand, Option.toList_none, expandRest_fallbackChain named short flat values,
    Except.map, String.ofList_toList]

theorem fourth_name_reached :
    fallbackChain ["HOST", "A.1", "HOST", "PORT"] "d\x7b" =
        "$\x7bHOST:-$\x7bA.1:-$\x7bHOST:-$\x7bPORT:-d\x7b\x7d\x7d\x7d\x7d" ∧
      (∀ name ∈ ["HOST", "A.1", "HOST", "PORT"], IsName name) ∧
      ["HOST", "A.1", "HOST", "PORT"].length ≤ Reference.nesting + 1 ∧
      Flat "d\x7b" ∧
      (∀ name ∈ ["HOST", "A.1", "HOST", "PORT"], ∀ value ∈ portScope.text? name,
        '$' ∉ value.toList) ∧
      expand portScope none (fallbackChain ["HOST", "A.1", "HOST", "PORT"] "d\x7b") =
        .ok "8080" := by
  have named : ∀ name ∈ ["HOST", "A.1", "HOST", "PORT"], IsName name := by decide
  have values : ∀ name ∈ ["HOST", "A.1", "HOST", "PORT"], ∀ value ∈ portScope.text? name,
      '$' ∉ value.toList := by decide
  exact ⟨by decide, named, by decide, by decide, values,
    fallbacks_tried_in_turn portScope _ "d\x7b" named (by decide) (by decide) values⟩

example :
    (Reference.takeFallback (fallbackChain ["B", "C", "D", "E"] "d").toList).2 = ['\x7d'] := by
  decide

end LayeredEnv.Value
