import LayeredEnv.Value.Rendering
import LayeredEnv.Proofs.Json.RoundTrip
import LayeredEnv.Proofs.Value.Number

set_option autoImplicit false

namespace LayeredEnv.Value

open Decimal (Binary64)
open Json (FloatFree Readable lex? read? render tokens write)

theorem word_of_small {n : Int} (small : n.natAbs < Binary64.safeBound) : Json.Word n := by
  have bound : n.natAbs < 0x20000000000000 := small
  constructor <;> omega

inductive Brackets : Char → Char → Json → Prop
  | array : Brackets '[' ']' (.arr [])
  | object : Brackets '\x7b' '\x7d' (.obj [])

variable {opening closing : Char} {empty : Json}

theorem Brackets.contained (brackets : Brackets opening closing empty) {text : List Char}
    (wrapped : isWrapped opening closing text = true) :
    ((read? (String.ofList text)).getD empty).isContainer = true ∧
      Readable Json.Progress.depthLimit ((read? (String.ofList text)).getD empty) := by
  simp only [isWrapped, Bool.and_eq_true, decide_eq_true_eq] at wrapped
  obtain ⟨rest, rfl⟩ := List.head?_eq_some_iff.mp wrapped.1
  cases read : read? (String.ofList (opening :: rest)) with
  | none =>
    cases brackets with
    | array => exact ⟨rfl, .arr 126 [] (by simp)⟩
    | object => exact ⟨rfl, .obj 126 [] List.nodup_nil (by simp)⟩
  | some json =>
    have bracket : opening = '[' ∨ opening = '\x7b' := by cases brackets <;> simp
    exact ⟨Json.isContainer_of_read? bracket read, Json.readable_of_read? read⟩

theorem container?_eq_some {text : List Char} {json : Json} (found : container? text = some json) :
    json.isContainer = true ∧ Readable Json.Progress.depthLimit json := by
  unfold container? at found
  split at found
  next wrapped =>
    cases found
    exact Brackets.array.contained wrapped
  next =>
    split at found
    next wrapped =>
      cases found
      exact Brackets.object.contained wrapped
    next => cases found

theorem typedPlain_cases (text : List Char) :
    (∃ inner, typedPlain text = .str inner) ∨ (∃ value, typedPlain text = .bool value) ∨
      (∃ value, number? text = some value ∧ typedPlain text = .num value) ∨
      ∃ json, container? text = some json ∧ typedPlain text = json := by
  unfold typedPlain
  split
  next => exact .inl ⟨_, rfl⟩
  split
  next => exact .inl ⟨_, rfl⟩
  split
  next => exact .inr (.inl ⟨_, rfl⟩)
  split
  next value found => exact .inr (.inr (.inl ⟨value, found, rfl⟩))
  next =>
    cases found : container? text with
    | none => exact .inl ⟨_, rfl⟩
    | some json => exact .inr (.inr (.inr ⟨json, rfl, rfl⟩))

theorem small_of_typed {source : String} {n : Int} (same : typed source = .num (.int n)) :
    n.natAbs < Binary64.safeBound := by
  rcases typedPlain_cases (unescapeDollars source.toList) with
    ⟨_, other⟩ | ⟨_, other⟩ | ⟨value, found, other⟩ | ⟨json, found, other⟩
  · cases same.symm.trans other
  · cases same.symm.trans other
  · cases same.symm.trans other
    exact small_of_number? found
  · cases same.symm.trans other
    cases (container?_eq_some found).1

theorem typed_readable (source : String) : Readable Json.Progress.depthLimit (typed source) := by
  rw [typed]
  rcases typedPlain_cases (unescapeDollars source.toList) with
    ⟨_, same⟩ | ⟨_, same⟩ | ⟨value, found, same⟩ | ⟨json, found, same⟩
  · rw [same]
    exact .str _ _
  · rw [same]
    exact .bool _ _
  · rw [same]
    refine .num _ value ?_
    cases value with
    | int n => exact word_of_small (small_of_number? found)
    | float value => trivial
  · rw [same]
    exact (container?_eq_some found).2

theorem Brackets.number? (brackets : Brackets opening closing empty) (rest : List Char) :
    Value.number? (opening :: rest) = none := by
  have kept : Text.isSpacing opening = false := by cases brackets <;> rfl
  rw [Value.number?, Text.trimBy, List.dropWhile_cons_of_neg (by simp [kept]),
    Text.dropTail_cons kept]
  cases brackets <;> rfl

theorem Brackets.boolean? (brackets : Brackets opening closing empty) (rest : List Char) :
    Value.boolean? (opening :: rest) = none := by
  cases brackets <;> simp [Value.boolean?, Text.lower]

theorem Brackets.typedPlain (brackets : Brackets opening closing empty) (inner : List Char) :
    Value.typedPlain (opening :: (inner ++ [closing])) =
      (read? (String.ofList (opening :: (inner ++ [closing])))).getD empty := by
  have last : (opening :: (inner ++ [closing])).getLast? = some closing := by
    rw [← List.cons_append, List.getLast?_concat]
  have unquoted : enclosed? (opening :: (inner ++ [closing])) = none := by
    cases brackets <;> simp [enclosed?]
  have unforced : Text.dropLast? '*' (opening :: (inner ++ [closing])) = none := by
    rw [Text.dropLast?, last]
    cases brackets <;> rfl
  rw [Value.typedPlain, unquoted, unforced, brackets.boolean?, brackets.number?]
  cases brackets <;> simp [container?, isWrapped, last]

theorem Brackets.typed (brackets : Brackets opening closing empty) {source : String}
    {inner : List Char} (text : source.toList = opening :: (inner ++ [closing])) :
    Value.typed source =
      (read? (String.ofList (unescapeDollars source.toList))).getD empty := by
  have wrapped : unescapeDollars source.toList =
      opening :: (unescapeDollars inner ++ [closing]) := by
    rw [text, unescapeDollars_cons (by cases brackets <;> simp),
      unescapeDollars_concat (by cases brackets <;> simp)]
  rw [Value.typed, wrapped, brackets.typedPlain]

def emptied : Json → Json
  | .arr _ => .arr []
  | .obj _ => .obj []
  | json => json

theorem write_wrapped {json : Json} (container : json.isContainer = true) :
    ∃ opening closing inner, Brackets opening closing (emptied json) ∧
      (write json).toList = opening :: (inner ++ [closing]) := by
  cases json with
  | arr items =>
    obtain ⟨inner, same⟩ := Json.tokens_arr items
    refine ⟨_, _, inner.flatMap Json.Token.write, .array, ?_⟩
    simp [write, same, Json.Token.write]
  | obj fields =>
    obtain ⟨inner, same⟩ := Json.tokens_obj fields
    refine ⟨_, _, inner.flatMap Json.Token.write, .object, ?_⟩
    simp [write, same, Json.Token.write]
  | _ => cases container

theorem typedPlain_write {json : Json} (container : json.isContainer = true)
    (readable : Readable Json.Progress.depthLimit json) (floatFree : json.FloatFree) :
    typedPlain (write json).toList = json := by
  obtain ⟨opening, closing, inner, brackets, text⟩ := write_wrapped container
  rw [text, brackets.typedPlain, ← text, String.ofList_toList, Json.read?_write readable floatFree]
  rfl

theorem typed_write {json : Json} (container : json.isContainer = true)
    (readable : Readable Json.Progress.depthLimit json) (floatFree : json.FloatFree)
    (free : ¬ Dollared json) : typed (write json) = json := by
  have kept : unescapeDollars (write json).toList = (write json).toList := by
    rw [write, String.toList_ofList]
    apply unescapeDollars_tokens (readable.exact floatFree)
    intro token member
    by_contra held
    exact free (dollared_iff.mpr ⟨token, member, held⟩)
  rw [typed, kept, typedPlain_write container readable floatFree]

theorem typed_write_of_dollared {json : Json} (container : json.isContainer = true)
    (readable : Readable Json.Progress.depthLimit json) (floatFree : json.FloatFree)
    (dollared : Dollared json) : typed (write json) = emptied json := by
  obtain ⟨opening, closing, inner, brackets, text⟩ := write_wrapped container
  obtain ⟨token, member, held⟩ := dollared_iff.mp dollared
  have refused : lex? (unescapeDollars (write json).toList) = none := by
    rw [write, String.toList_ofList]
    exact lex?_unescapeDollars (readable.exact floatFree) (Json.tokens_spaced json) member held
  rw [brackets.typed text, read?, String.toList_ofList, refused]
  rfl

theorem emptied_ne_self {json : Json} (container : json.isContainer = true)
    (dollared : Dollared json) : emptied json ≠ json := by
  intro same
  rw [← same] at dollared
  cases json with
  | arr items => exact absurd dollared (show ¬ Dollared (.arr []) by decide)
  | obj fields => exact absurd dollared (show ¬ Dollared (.obj []) by decide)
  | _ => cases container

inductive Storable : Json → Prop
  | bool (value : Bool) : Storable (.bool value)
  | int (n : Int) : Storable (.num (.int n))
  | container {json : Json} (container : json.isContainer = true) (floatFree : json.FloatFree) :
    Storable json

theorem typed_bool (value : Bool) : typed (toString value) = .bool value := by
  cases value <;> decide

theorem render_container {json : Json} (container : json.isContainer = true) :
    render json = write json := by
  cases json <;> first | rfl | cases container

/-- What the text of a typed value is typed as: the value again, or the empty container if a text in
the value holds an escaped dollar sign. -/
theorem typed_render_typed {source : String} (storable : Storable (typed source)) :
    (typed (render (typed source)) = typed source ↔ ¬ Dollared (typed source)) ∧
      (Dollared (typed source) → typed (render (typed source)) = emptied (typed source)) := by
  have readable := typed_readable source
  generalize same : typed source = json at storable readable ⊢
  cases storable with
  | bool value =>
    have free : ¬ Dollared (.bool value) := by cases value <;> decide
    exact ⟨iff_of_true (typed_bool value) free, fun dollared => absurd dollared free⟩
  | int n =>
    have free : ¬ Dollared (.num (.int n)) := by simp [dollared_iff, tokens, DollarFree]
    exact ⟨iff_of_true (typed_toString (small_of_typed same)) free,
      fun dollared => absurd dollared free⟩
  | container container floatFree =>
    have lost := typed_write_of_dollared container readable floatFree
    rw [render_container container]
    refine ⟨⟨fun back dollared => ?_, typed_write container readable floatFree⟩, lost⟩
    exact emptied_ne_self container dollared ((lost dollared).symm.trans back)

theorem texts_floatFree (texts : List String) : Json.FloatFree (.arr (texts.map .str)) := by
  intro value within
  cases within with
  | item inner member =>
    obtain ⟨text, _, rfl⟩ := List.mem_map.mp member
    cases inner

theorem texts_readable (texts : List String) :
    Readable Json.Progress.depthLimit (.arr (texts.map .str)) := by
  refine .arr 126 _ fun item member => ?_
  obtain ⟨text, _, rfl⟩ := List.mem_map.mp member
  exact .str 126 text

theorem typed_texts {source : String} {texts : List String}
    (text : unescapeDollars source.toList = (write (.arr (texts.map .str))).toList) :
    typed source = .arr (texts.map .str) := by
  rw [typed, text, typedPlain_write rfl (texts_readable texts) (texts_floatFree texts)]

theorem escaped_dollar_empties :
    ¬ ∀ source, Storable (typed source) → typed (render (typed source)) = typed source := by
  intro back
  have read : typed "[\"\\\\\\$\"]" = .arr (["\\$"].map .str) := typed_texts (by decide)
  have dollared : Dollared (.arr (["\\$"].map .str)) := by decide
  have lost := typed_write_of_dollared rfl (texts_readable _) (texts_floatFree _) dollared
  have same := back "[\"\\\\\\$\"]" (by rw [read]; exact .container rfl (texts_floatFree _))
  rw [read, render_container rfl, lost] at same
  cases same

theorem backslashes_come_back :
    Storable (typed "[\"a\\\\b\",\"$\"]") ∧
      typed (render (typed "[\"a\\\\b\",\"$\"]")) = typed "[\"a\\\\b\",\"$\"]" := by
  have read : typed "[\"a\\\\b\",\"$\"]" = .arr (["a\\b", "$"].map .str) :=
    typed_texts (by decide)
  have storable : Storable (typed "[\"a\\\\b\",\"$\"]") := by
    rw [read]
    exact .container rfl (texts_floatFree _)
  refine ⟨storable, (typed_render_typed storable).1.mpr ?_⟩
  rw [read]
  decide

end LayeredEnv.Value
