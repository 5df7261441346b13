import LayeredEnv.Proofs.Value.Unrolling

set_option autoImplicit false

namespace LayeredEnv.Value

inductive Plain : List Char → Prop
  | nil : Plain []
  | cons {c : Char} {rest : List Char} (first : Piece.next? (c :: rest) = some (.plain c, rest))
    (later : Plain rest) : Plain (c :: rest)

theorem next?_plain {c : Char} {rest : List Char} (dollar : c ≠ '$')
    (unshielded : c = '\\' → rest.head? ≠ some '$') :
    Piece.next? (c :: rest) = some (.plain c, rest) := by
  rw [Piece.next?.eq_def]
  split
  next same => cases same
  next same =>
    cases same
    simp at unshielded
  next same =>
    cases same
    rw [if_neg dollar]

theorem next?_of_no_dollar {c : Char} {rest : List Char} (none : '$' ∉ c :: rest) :
    Piece.next? (c :: rest) = some (.plain c, rest) := by
  simp only [List.mem_cons, not_or] at none
  exact next?_plain (Ne.symm none.1) fun _ head => none.2 (List.mem_of_mem_head? head)

theorem plain_of_no_dollar {text : List Char} (none : '$' ∉ text) : Plain text := by
  induction text with
  | nil => exact .nil
  | cons c rest ih =>
    exact .cons (next?_of_no_dollar none) (ih fun member => none (List.mem_cons_of_mem c member))

theorem Plain.expandRest {text : List Char} (plain : Plain text) (scope : Scope)
    (stack : List String) (current : List Char) :
    Value.expandRest scope stack current text = .ok text := by
  induction plain with
  | nil => exact expandRest_done rfl
  | cons first _ ih =>
    rw [expandRest_plain first, ih]
    rfl

theorem Plain.unrollRest {text : List Char} (plain : Plain text) (scope : Scope)
    (current : List Char) : unrollRest scope current text = some text := by
  obtain ⟨depth, unrolls⟩ := unrolls_of_expandRest (plain.expandRest scope [] current)
  exact unrollRest_of_unrolls unrolls

theorem Plain.unroll {text : String} (plain : Plain text.toList) (scope : Scope) :
    unroll scope text = some text := by
  simp [Value.unroll, plain.unrollRest]

theorem unroll_empty (scope : Scope) : unroll scope "" = some "" := by
  have plain : Plain "".toList := .nil
  exact plain.unroll scope

theorem Plain.expand {text : String} (plain : Plain text.toList) (scope : Scope)
    (key : Option String) : expand scope key text = .ok text := by
  simp [Value.expand, plain.expandRest, Except.map]

theorem Plain.resolve {text : String} (plain : Plain text.toList) (scope : Scope) (key : String) :
    resolve scope key text = .ok (typed text) := by
  simp [Value.resolve, plain.expand, Except.map]

end LayeredEnv.Value
