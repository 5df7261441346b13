import LayeredEnv.Value.Typing
import LayeredEnv.Proofs.Json.Writing
import LayeredEnv.Proofs.Text.Blank

set_option autoImplicit false

namespace LayeredEnv.Value

open Json (Names Token escape lex? readString? tokens)

def HasEscapedDollar (text : List Char) : Prop := ['\\', '$'] <:+: text

instance (text : List Char) : Decidable (HasEscapedDollar text) :=
  inferInstanceAs (Decidable (['\\', '$'] <:+: text))

theorem hasEscapedDollar_cons {c : Char} {text : List Char} :
    HasEscapedDollar (c :: text) ↔
      (c = '\\' ∧ text.head? = some '$') ∨ HasEscapedDollar text :=
  Text.pair_infix_cons

theorem unescapeDollars_cons {c : Char} {rest : List Char}
    (apart : c = '\\' → rest.head? ≠ some '$') :
    unescapeDollars (c :: rest) = c :: unescapeDollars rest := by
  rw [unescapeDollars]
  rintro tail rfl rfl
  exact apart rfl rfl

theorem unescapeDollars_plain {text : List Char} (plain : '\\' ∉ text) (rest : List Char) :
    unescapeDollars (text ++ rest) = text ++ unescapeDollars rest := by
  induction text with
  | nil => rfl
  | cons c text ih =>
    simp only [List.mem_cons, not_or] at plain
    rw [List.cons_append, unescapeDollars_cons (fun same => absurd same.symm plain.1), ih plain.2]
    rfl

theorem unescapeDollars_concat {last : Char} (apart : last ≠ '$') (text : List Char) :
    unescapeDollars (text ++ [last]) = unescapeDollars text ++ [last] := by
  induction text using unescapeDollars.induct with
  | case1 rest ih =>
    simp only [List.cons_append, unescapeDollars, ih]
  | case2 c rest other ih =>
    have head : c = '\\' → rest.head? ≠ some '$' := by
      intro same dollar
      obtain ⟨more, rfl⟩ := List.head?_eq_some_iff.mp dollar
      exact other more same rfl
    have behind : c = '\\' → (rest ++ [last]).head? ≠ some '$' := by
      cases rest with
      | nil => exact fun _ dollar => apart (Option.some.inj dollar)
      | cons d more => exact head
    rw [List.cons_append, unescapeDollars_cons behind, unescapeDollars_cons head, ih,
      List.cons_append]
  | case3 =>
    rw [List.nil_append, unescapeDollars_cons (by simp)]
    rfl

theorem escape_head {c : Char} {rest : List Char} (head : (escape c ++ rest).head? = some '$') :
    c = '$' := by
  unfold escape at head
  iterate 8
    split at head
    next => simp at head
  simpa using head

theorem escaped_head {text rest : List Char}
    (head : (text.flatMap escape ++ rest).head? = some '$') :
    text.head? = some '$' ∨ text = [] ∧ rest.head? = some '$' := by
  cases text with
  | nil => exact .inr ⟨rfl, head⟩
  | cons c more =>
    rw [List.flatMap_cons, List.append_assoc] at head
    exact .inl (congrArg some (escape_head head))

theorem hexDigit_ne_backslash : ∀ n < 16, Json.hexDigit n ≠ '\\' := by decide

theorem unescapeDollars_escape {c : Char} {rest : List Char}
    (apart : c = '\\' → rest.head? ≠ some '$') :
    unescapeDollars (escape c ++ rest) = escape c ++ unescapeDollars rest := by
  by_cases backslash : c = '\\'
  next =>
    subst backslash
    have second := unescapeDollars_cons apart
    change unescapeDollars ('\\' :: '\\' :: rest) = _
    rw [unescapeDollars_cons (by simp), second]
    rfl
  next =>
    rw [escape, if_neg backslash]
    iterate 6
      split
      next => rfl
    split
    next control =>
      have high := hexDigit_ne_backslash (c.toNat / 16) (by omega)
      have low := hexDigit_ne_backslash (c.toNat % 16) (by omega)
      have plain : '\\' ∉ ['0', '0', Json.hexDigit (c.toNat / 16), Json.hexDigit (c.toNat % 16)] := by
        simp [high.symm, low.symm]
      exact congrArg ('\\' :: 'u' :: ·) (unescapeDollars_plain plain rest)
    next => exact unescapeDollars_cons fun same => absurd same backslash

theorem unescapeDollars_escaped {text rest : List Char} (clean : ¬ HasEscapedDollar text)
    (apart : rest.head? ≠ some '$') :
    unescapeDollars (text.flatMap escape ++ rest) = text.flatMap escape ++ unescapeDollars rest := by
  induction text with
  | nil => rfl
  | cons c text ih =>
    simp only [hasEscapedDollar_cons, not_or, not_and] at clean
    rw [List.flatMap_cons, List.append_assoc, unescapeDollars_escape, ih clean.2, List.append_assoc]
    intro backslash head
    rcases escaped_head head with dollar | ⟨_, behind⟩
    · exact clean.1 backslash dollar
    · exact apart behind

theorem readString?_unescapeDollars {text rest : List Char} (escaped : HasEscapedDollar text) :
    readString? (unescapeDollars (text.flatMap escape ++ rest)) = none := by
  induction text with
  | nil => simp [HasEscapedDollar] at escaped
  | cons c text ih =>
    by_cases here : c = '\\' ∧ text.head? = some '$'
    next =>
      obtain ⟨rfl, head⟩ := here
      obtain ⟨more, rfl⟩ := List.head?_eq_some_iff.mp head
      -- Of the two backslashes that stand for one, the second goes with the dollar sign.
      change readString? ('\\' :: '$' :: _) = none
      rw [readString?]
      · rfl
      all_goals simp
    next =>
      have later := (hasEscapedDollar_cons.mp escaped).resolve_left here
      rw [List.flatMap_cons, List.append_assoc, unescapeDollars_escape, Json.readString?_escape,
        ih later]
      · rfl
      · intro backslash head
        rcases escaped_head head with dollar | ⟨rfl, _⟩
        · exact here ⟨backslash, dollar⟩
        · simp [HasEscapedDollar] at later

def DollarFree : Token → Prop
  | .str text => ¬ HasEscapedDollar text
  | _ => True

instance : (token : Token) → Decidable (DollarFree token)
  | .str text => inferInstanceAs (Decidable (¬ HasEscapedDollar text))
  | .beginArray | .endArray | .beginObject | .endObject | .comma | .colon | .null | .bool _
  | .num _ => isTrue trivial

theorem unescapeDollars_write {token : Token} (exact : token.Exact) (free : DollarFree token)
    (rest : List Char) :
    unescapeDollars (token.write ++ rest) = token.write ++ unescapeDollars rest := by
  cases token with
  | str text =>
    have apart : ('"' :: rest).head? ≠ some '$' := by simp
    have inner := unescapeDollars_escaped free apart
    rw [Token.write, Json.quote, List.cons_append, List.append_assoc, List.singleton_append,
      unescapeDollars_cons (by simp), inner, unescapeDollars_cons (by simp)]
    simp
  | num value =>
    cases value with
    | int n => exact unescapeDollars_plain (Decimal.not_mem_toString (by decide) (by decide) n) rest
    | float value => exact exact.elim
  | bool value => cases value <;> exact unescapeDollars_plain (by decide) rest
  | _ => exact unescapeDollars_plain (by decide) rest

theorem unescapeDollars_tokens {tokens : List Token} (exact : ∀ token ∈ tokens, token.Exact)
    (free : ∀ token ∈ tokens, DollarFree token) :
    unescapeDollars (tokens.flatMap Token.write) = tokens.flatMap Token.write := by
  induction tokens with
  | nil => rfl
  | cons token more ih =>
    rw [List.flatMap_cons, unescapeDollars_write (exact token (by simp)) (free token (by simp)),
      ih (fun other member => exact other (by simp [member]))
        fun other member => free other (by simp [member])]

theorem lex?_unescapeDollars {tokens : List Token} (exact : ∀ token ∈ tokens, token.Exact)
    (spaced : Token.Spaced tokens) {bad : Token} (member : bad ∈ tokens)
    (escaped : ¬ DollarFree bad) : lex? (unescapeDollars (tokens.flatMap Token.write)) = none := by
  induction tokens with
  | nil => cases member
  | cons token more ih =>
    by_cases free : DollarFree token
    next =>
      have later : bad ∈ more := by
        rcases List.mem_cons.mp member with rfl | later
        · exact absurd free escaped
        · exact later
      have first := exact token (by simp)
      -- A number ends where it ended before, since the delimiter behind it stays.
      have behind : token.isNumber = true →
          Json.Ends (unescapeDollars (more.flatMap Token.write)) := by
        intro number
        cases more with
        | nil => cases later
        | cons next last =>
          have mark : next.isDelimiter = true := spaced.rel number
          have plain : DollarFree next := by cases next <;> trivial
          rw [List.flatMap_cons, unescapeDollars_write (exact next (by simp)) plain]
          exact Token.isDelimiter.ends mark _
      rw [List.flatMap_cons, unescapeDollars_write first free, first.lex? behind,
        ih (fun other inside => exact other (by simp [inside])) spaced.tail later]
      rfl
    next =>
      cases token with
      | str text =>
        have held : HasEscapedDollar text := not_not.mp free
        rw [List.flatMap_cons, Token.write, Json.quote, List.cons_append, List.append_assoc,
          unescapeDollars_cons (by simp)]
        apply Json.lex?_refused (by decide)
        rw [Json.readToken?, readString?_unescapeDollars held]
        rfl
      | _ => exact absurd trivial free

def Dollared (json : Json) : Prop := ∃ text, Names text json ∧ HasEscapedDollar text.toList

theorem dollared_iff {json : Json} :
    Dollared json ↔ ∃ token ∈ tokens [] json, ¬ DollarFree token := by
  constructor
  · rintro ⟨name, names, escaped⟩
    exact ⟨_, names.mem_tokens, fun free => free escaped⟩
  · rintro ⟨token, member, held⟩
    cases token with
    | str text =>
      refine ⟨_, Json.stands_of_mem_tokens member, ?_⟩
      rw [String.toList_ofList]
      exact not_not.mp held
    | _ => exact absurd trivial held

instance (json : Json) : Decidable (Dollared json) := decidable_of_iff _ dollared_iff.symm

end LayeredEnv.Value
