import LayeredEnv.Settings.Layer

set_option autoImplicit false

namespace LayeredEnv.Layer

theorem empty_or (layer : Layer) : empty.or layer = layer := rfl

theorem or_empty (layer : Layer) : layer.or empty = layer := by
  simp [or, empty]

theorem or_assoc (upper middle lower : Layer) :
    (upper.or middle).or lower = upper.or (middle.or lower) := by
  simp [or, Option.or_assoc]

theorem apply_empty (settings : Settings) : empty.apply settings = settings := rfl

theorem apply_or (upper lower : Layer) (settings : Settings) :
    (upper.or lower).apply settings = upper.apply (lower.apply settings) := by
  simp [or, apply, Option.or_assoc, Option.getD_or]

theorem foldl_or (start : Layer) (layers : List Layer) :
    layers.foldl or start = start.or (combine layers) := by
  induction layers generalizing start with
  | nil => exact (or_empty start).symm
  | cons layer rest ih =>
    have later : combine (layer :: rest) = layer.or (combine rest) := ih (empty.or layer)
    rw [List.foldl_cons, ih, later, or_assoc]

theorem combine_cons (layer : Layer) (rest : List Layer) :
    combine (layer :: rest) = layer.or (combine rest) :=
  foldl_or (empty.or layer) rest

theorem apply_combine (layers : List Layer) (base : Settings) :
    (combine layers).apply base = layers.foldr apply base := by
  induction layers with
  | nil => exact apply_empty base
  | cons layer rest ih => rw [combine_cons, apply_or, ih, List.foldr_cons]

def firsts (layers : List Layer) : Layer where
  environment := layers.findSome? environment
  fallbackEnvironment := layers.findSome? fallbackEnvironment
  directory := layers.findSome? directory
  pattern := layers.findSome? pattern
  files := layers.findSome? files
  encoding := layers.findSome? encoding
  purge := layers.findSome? purge
  debug := layers.findSome? debug
  silent := layers.findSome? silent

theorem firsts_append (uppers lowers : List Layer) :
    firsts (uppers ++ lowers) = (firsts uppers).or (firsts lowers) := by
  simp only [firsts, or, List.findSome?_append]

theorem firsts_singleton (layer : Layer) : firsts [layer] = layer := by
  simp [firsts]

theorem combine_eq_firsts (layers : List Layer) : combine layers = firsts layers := by
  induction layers with
  | nil => rfl
  | cons layer rest ih =>
    rw [combine_cons, ih, ← List.singleton_append, firsts_append, firsts_singleton]

theorem first_layer_decides (layers : List Layer) (base : Settings) :
    (combine layers).apply base = layers.foldr apply base ∧
      (∀ upper middle lower : Layer, (upper.or middle).or lower = upper.or (middle.or lower)) ∧
      (∀ layer : Layer, empty.or layer = layer ∧ layer.or empty = layer) ∧
      combine layers = firsts layers ∧
      (combine layers).apply base =
        { base with
          environment := (layers.findSome? environment).or base.environment
          fallbackEnvironment := (layers.findSome? fallbackEnvironment).or base.fallbackEnvironment
          directory := (layers.findSome? directory).or base.directory
          pattern := (layers.findSome? pattern).or base.pattern
          files := (layers.findSome? files).or base.files
          encoding := (layers.findSome? encoding).or base.encoding
          purge := (layers.findSome? purge).getD base.purge
          silent := (layers.findSome? silent).getD base.silent } := by
  refine ⟨apply_combine layers base, or_assoc, fun layer => ⟨empty_or layer, or_empty layer⟩,
    combine_eq_firsts layers, ?_⟩
  rw [combine_eq_firsts]
  rfl

-- A flag that a layer switches off is set, so the layer below does not decide it.
example (base : Settings) :
    (combine [{ environment := some "test" },
        { environment := some "production", silent := some false },
        { pattern := some ".env", silent := some true }]).apply base =
      { base with environment := some "test", pattern := some ".env", silent := false } := rfl

end LayeredEnv.Layer
