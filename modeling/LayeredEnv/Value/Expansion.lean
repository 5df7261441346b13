import LayeredEnv.Value.Reference
import LayeredEnv.Value.Rendering
import LayeredEnv.Value.Typing
import LayeredEnv.Variables

set_option autoImplicit false

namespace LayeredEnv.Value

structure Scope where
  vars : Variables
  fields : Fields

inductive Binding
  | verbatim (text : String)
  | pending (text : String)
  | unset
deriving DecidableEq, Repr

namespace Scope

def names (scope : Scope) : List String := scope.vars.keys ++ scope.fields.keys

def variableText? (scope : Scope) (name : String) : Option String :=
  scope.vars[name]?.filter (· ≠ "")

def fieldText? (scope : Scope) (name : String) : Option String :=
  ((scope.fields.get? name).map Json.render).filter (· ≠ "")

/-- What a name stands for inside the text `current`. A variable that holds just what its field says
is taken as it is. A field whose text is `current` itself does not count, so that a text may refer
to an outer value of its own name. -/
def lookup (scope : Scope) (current : List Char) (name : String) : Binding :=
  match scope.variableText? name with
  | some value =>
    if (scope.fields.get? name).bind Json.str? = some value then .verbatim value
    else .pending value
  | none =>
    match scope.fieldText? name with
    | some value => if value.toList = current then .unset else .pending value
    | none => .unset

def unvisited (scope : Scope) (stack : List String) : Nat :=
  scope.names.countP (fun name => decide (name ∉ stack))

theorem mem_names_of_pending {scope : Scope} {current : List Char} {name value : String}
    (h : scope.lookup current name = .pending value) : name ∈ scope.names := by
  unfold lookup at h
  simp only [names, List.mem_append]
  split at h
  next v found =>
    left
    simp only [variableText?, Option.filter_eq_some_iff] at found
    rw [Std.ExtTreeMap.mem_keys]
    exact Std.ExtTreeMap.mem_iff_isSome_getElem?.mpr (by simp [found.1])
  next =>
    split at h
    next v found =>
      right
      simp only [fieldText?, Option.filter_eq_some_iff, Option.map_eq_some_iff] at found
      obtain ⟨⟨field, present, _⟩, _⟩ := found
      exact (Fields.get?_isSome_iff name scope.fields).mp (by simp [present])
    next => simp at h

theorem unvisited_push {scope : Scope} {stack : List String} {name : String}
    (known : name ∈ scope.names) (fresh : name ∉ stack) :
    scope.unvisited (stack ++ [name]) < scope.unvisited stack := by
  unfold unvisited
  generalize scope.names = names at known
  have shrink : ∀ others : List String,
      others.countP (fun n => decide (n ∉ stack ++ [name])) ≤
        others.countP (fun n => decide (n ∉ stack)) := by
    intro others
    apply List.countP_mono_left
    simp +contextual
  induction names with
  | nil => simp at known
  | cons head rest ih =>
    by_cases same : head = name
    next =>
      have bound := shrink rest
      simp only [List.countP_cons, same, List.mem_append, List.mem_singleton, or_true,
        not_true_eq_false, decide_false, fresh, not_false_eq_true, decide_true] at bound ⊢
      simp only [if_true, Bool.false_eq_true, if_false]
      omega
    next =>
      have step := ih (by simpa [Ne.symm same] using known)
      simp only [List.countP_cons, List.mem_append, List.mem_singleton, same, or_false] at step ⊢
      omega

end Scope

/-- Expands the rest of a text `current`. An error is the chain of names that leads from the stack
back to a name on it. A fallback that starts with a dollar sign is expanded as a text of its own. -/
def expandRest (scope : Scope) (stack : List String) (current text : List Char) :
    Except (List String) (List Char) :=
  match _split : Piece.next? text with
  | none => .ok []
  | some (.plain c, rest) => (expandRest scope stack current rest).map (c :: ·)
  | some (.escaped source, rest) => (expandRest scope stack current rest).map (source ++ ·)
  | some (.reference target, rest) => do
    let value ← match _binding : scope.lookup current target.name with
      | .verbatim value => .ok value.toList
      | .pending value =>
        if _seen : target.name ∈ stack then .error (stack ++ [target.name])
        else expandRest scope (stack ++ [target.name]) value.toList value.toList
      | .unset =>
        if target.fallback.head? = some '$' then
          expandRest scope stack target.fallback target.fallback
        else .ok target.fallback
    (expandRest scope stack current rest).map (value ++ ·)
termination_by (scope.unvisited stack, text.length)
decreasing_by
  · exact Prod.Lex.right _ (Piece.next?_length _split)
  · exact Prod.Lex.right _ (Piece.next?_length _split)
  · exact Prod.Lex.right _ (Piece.next?_length _split)
  · exact Prod.Lex.left _ _ (Scope.unvisited_push (Scope.mem_names_of_pending ‹_›) ‹_›)
  · exact Prod.Lex.right _ (Piece.fallback_length _split)

def expand (scope : Scope) (key : Option String) (text : String) :
    Except (List String) String :=
  (expandRest scope key.toList text.toList text.toList).map String.ofList

def resolve (scope : Scope) (key raw : String) : Except (List String) Json :=
  (expand scope (some key) raw).map typed

end LayeredEnv.Value
