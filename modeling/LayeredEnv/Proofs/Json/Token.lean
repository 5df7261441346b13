import LayeredEnv.Json.Reader
import LayeredEnv.Proofs.Decimal.Digits
import Mathlib.Data.List.Chain

set_option autoImplicit false

namespace LayeredEnv.Json

theorem hexValue?_hexDigit : ∀ n < 16, hexValue? (hexDigit n) = some n := by decide

theorem unit?_control {n : Nat} (small : n < 0x20) :
    unit? '0' '0' (hexDigit (n / 16)) (hexDigit (n % 16)) = some n := by
  have high := hexValue?_hexDigit (n / 16) (by omega)
  have low := hexValue?_hexDigit (n % 16) (by omega)
  have zero : hexValue? '0' = some 0 := by decide
  simp only [unit?, zero, high, low, Option.bind_eq_bind, Option.bind_some, Option.some.injEq]
  omega

theorem readString?_escape (c : Char) (rest : List Char) :
    readString? (escape c ++ rest) =
      (readString? rest).map fun (text, after) => (c :: text, after) := by
  unfold escape
  iterate 7
    split
    next same => subst same; rfl
  split
  next control =>
    have below : c.toNat < 0xD800 := by omega
    have unit := unit?_control control
    simp only [List.cons_append, List.nil_append, readString?, unit, below, decide_true,
      Bool.true_or, if_true, Char.ofNat_toNat]
  next mark backslash _ _ _ _ _ control =>
    rw [List.singleton_append, readString?]
    · rw [if_neg]
      simp [backslash, control]
    · exact mark
    all_goals simp [backslash]

theorem readString?_quoted (text rest : List Char) :
    readString? (text.flatMap escape ++ '"' :: rest) = some (text, rest) := by
  induction text with
  | nil => rw [List.flatMap_nil, List.nil_append, readString?]
  | cons c text ih => rw [List.flatMap_cons, List.append_assoc, readString?_escape, ih]; rfl

open Decimal (accumulate_of_lt eq_zero_of_head isDigit_of_mem toList_toString)
open Nat (toDigits)

def Word (n : Int) : Prop := -0x8000000000000000 ≤ n ∧ n ≤ 0xFFFFFFFFFFFFFFFF

def Ends (rest : List Char) : Prop :=
  ∀ c ∈ rest.head?, c.isDigit = false ∧ c ≠ '.' ∧ c ≠ 'e' ∧ c ≠ 'E'

theorem Ends.takeWhile {rest : List Char} (ends : Ends rest) :
    rest.takeWhile Char.isDigit = [] := by
  cases rest with
  | nil => rfl
  | cons c rest => rw [List.takeWhile_cons_of_neg (by simp [(ends c rfl).1])]

theorem Ends.dropWhile {rest : List Char} (ends : Ends rest) :
    rest.dropWhile Char.isDigit = rest := by
  cases rest with
  | nil => rfl
  | cons c rest => rw [List.dropWhile_cons_of_neg (by simp [(ends c rfl).1])]

theorem Ends.readFraction? {rest : List Char} (ends : Ends rest) :
    Json.readFraction? rest = some ([], rest) := by
  unfold Json.readFraction?
  split
  next tail => exact absurd rfl (ends '.' rfl).2.1
  next => rfl

theorem Ends.readExponent? {rest : List Char} (ends : Ends rest) :
    Json.readExponent? rest = some (none, rest) := by
  cases rest with
  | nil => rfl
  | cons c rest =>
    obtain ⟨_, _, lower, upper⟩ := ends c rfl
    simp [Json.readExponent?, lower, upper]

theorem value?_digits {negative : Bool} {m : Nat}
    (word : Word (if negative then -(m : Int) else m)) (proper : negative = true → m ≠ 0) :
    Numeral.value? ⟨negative, toDigits 10 m, [], none⟩ =
      some (.int (if negative then -(m : Int) else m)) := by
  have fits : m < 2 ^ 64 := by
    unfold Word at word
    split at word <;> omega
  have read : accumulate 0 (toDigits 10 m) = (m, []) := by
    have value : Nat.ofDigitChars 10 (toDigits 10 m) 0 = m := Nat.ofDigitChars_ten_toDigits
    rw [accumulate_of_lt (by rw [value]; exact fits), value]
  rw [Numeral.value?]
  simp only [read]
  cases negative with
  | false => rfl
  | true =>
    have positive : 0 < m := Nat.pos_of_ne_zero (proper rfl)
    have bounded : m ≤ 2 ^ 63 := by
      simp only [Word, if_true] at word
      omega
    have fitting : (decide (0 < m) && decide (m ≤ Nat.pow 2 63)) = true := by
      rw [Bool.and_eq_true, decide_eq_true_eq, decide_eq_true_eq]
      exact ⟨positive, bounded⟩
    simp only [Bool.not_true, Bool.false_eq_true, if_false, fitting, if_true]

theorem readNumber?_digits (negative : Bool) (m : Nat) {rest : List Char} (ends : Ends rest)
    (word : Word (if negative then -(m : Int) else m)) (proper : negative = true → m ≠ 0) :
    readNumber? negative (toDigits 10 m ++ rest) =
      some (.num (.int (if negative then -(m : Int) else m)), rest) := by
  have digits : ∀ c ∈ toDigits 10 m, c.isDigit = true := fun c => isDigit_of_mem
  have whole : (toDigits 10 m ++ rest).takeWhile Char.isDigit = toDigits 10 m := by
    rw [List.takeWhile_append_of_pos digits, ends.takeWhile, List.append_nil]
  have behind : (toDigits 10 m ++ rest).dropWhile Char.isDigit = rest := by
    rw [List.dropWhile_append_of_pos digits, ends.dropWhile]
  have accepted : ((toDigits 10 m).isEmpty ||
      ((toDigits 10 m).head? = some '0' && 1 < (toDigits 10 m).length)) = false := by
    have filled : (toDigits 10 m).isEmpty = false := by simp [Nat.toDigits_ne_nil]
    -- A leading zero is refused, and zero itself is the only number that starts with one.
    by_cases head : (toDigits 10 m).head? = some '0'
    next => simp [eq_zero_of_head head, Nat.toDigits_zero]
    next => simp [filled, head]
  rw [readNumber?]
  simp only [whole, behind, accepted, Bool.false_eq_true, if_false, Option.bind_eq_bind,
    ends.readFraction?, ends.readExponent?, Option.bind_some, value?_digits word proper]

theorem readToken?_digit {c : Char} (digit : c.isDigit = true) (rest : List Char) :
    readToken? (c :: rest) = readNumber? false (c :: rest) := by
  unfold readToken?
  split
  case h_12 => rfl
  all_goals
    rename_i same
    cases same
    exact absurd digit (by decide)

theorem readToken?_int {n : Int} (word : Word n) {rest : List Char} (ends : Ends rest) :
    readToken? ((toString n).toList ++ rest) = some (.num (.int n), rest) := by
  rw [toList_toString]
  by_cases negative : n < 0
  next =>
    have same : n = -(n.natAbs : Int) := by omega
    have back := readNumber?_digits true n.natAbs ends
    simp only [if_true, ← same] at back
    rw [if_pos negative]
    exact back word fun _ => by omega
  next =>
    have same : (n.natAbs : Int) = n := by omega
    have back := readNumber?_digits false n.natAbs ends
    simp only [Bool.false_eq_true, if_false, same] at back
    rw [if_neg negative]
    cases digits : toDigits 10 n.natAbs with
    | nil => exact absurd digits Nat.toDigits_ne_nil
    | cons c more =>
      have digit : c.isDigit = true := isDigit_of_mem (n := n.natAbs) (by simp [digits])
      rw [List.cons_append, readToken?_digit digit, ← List.cons_append, ← digits]
      exact back word fun sign => by cases sign

theorem lex?_nil : lex? [] = some [] := by rw [lex?]

theorem lex?_token {c : Char} {rest after : List Char} {token : Token}
    (proper : isJsonSpace c = false) (read : readToken? (c :: rest) = some (token, after)) :
    lex? (c :: rest) = (lex? after).map (token :: ·) := by
  rw [lex?, if_neg (by simp [proper])]
  split
  next refused => rw [read] at refused; cases refused
  next next after found =>
    rw [read] at found
    cases found
    rfl

theorem lex?_refused {c : Char} {rest : List Char} (proper : isJsonSpace c = false)
    (refused : readToken? (c :: rest) = none) : lex? (c :: rest) = none := by
  rw [lex?, if_neg (by simp [proper])]
  split
  next => rfl
  next found => rw [refused] at found; cases found

namespace Token

def Exact : Token → Prop
  | .num (.int n) => Word n
  | .num (.float _) => False
  | _ => True

def isNumber : Token → Bool
  | .num _ => true
  | _ => false

def isDelimiter : Token → Bool
  | .comma | .endArray | .endObject => true
  | _ => false

theorem Exact.read {token : Token} (exact : token.Exact) {rest : List Char}
    (ends : token.isNumber = true → Ends rest) :
    readToken? (token.write ++ rest) = some (token, rest) := by
  cases token with
  | num value =>
    cases value with
    | int n => exact readToken?_int exact (ends rfl)
    | float value => exact exact.elim
  | str text =>
    rw [write, quote, List.cons_append, List.append_assoc, List.singleton_append, readToken?,
      readString?_quoted]
    rfl
  | bool value => cases value <;> rfl
  | _ => rfl

theorem not_space_of_digit {c : Char} (digit : c.isDigit = true) : isJsonSpace c = false := by
  rw [← Bool.not_eq_true]
  intro space
  simp only [isJsonSpace, Bool.or_eq_true, decide_eq_true_eq] at space
  rcases space with ((rfl | rfl) | rfl) | rfl <;> exact absurd digit (by decide)

theorem write_head (token : Token) (exact : token.Exact) :
    ∃ c rest, token.write = c :: rest ∧ isJsonSpace c = false := by
  cases token with
  | num value =>
    cases value with
    | int n =>
      have text : (Token.num (.int n)).write = (toString n).toList := rfl
      rw [text, toList_toString]
      split
      · exact ⟨_, _, rfl, rfl⟩
      · cases digits : toDigits 10 n.natAbs with
        | nil => exact absurd digits Nat.toDigits_ne_nil
        | cons c rest =>
          exact ⟨c, rest, rfl, not_space_of_digit (isDigit_of_mem (n := n.natAbs) (by simp [digits]))⟩
    | float value => exact exact.elim
  | bool value => cases value <;> exact ⟨_, _, rfl, rfl⟩
  | _ => exact ⟨_, _, rfl, rfl⟩

theorem Exact.lex? {token : Token} (exact : token.Exact) {rest : List Char}
    (ends : token.isNumber = true → Ends rest) :
    Json.lex? (token.write ++ rest) = (Json.lex? rest).map (token :: ·) := by
  obtain ⟨c, tail, text, proper⟩ := token.write_head exact
  have read := exact.read ends
  rw [text, List.cons_append] at read ⊢
  exact lex?_token proper read

theorem isDelimiter.ends {token : Token} (delimiter : token.isDelimiter = true) (rest : List Char) :
    Ends (token.write ++ rest) := by
  cases token <;> simp [isDelimiter] at delimiter
  all_goals
    intro c head
    cases head
    decide

def Spaced (tokens : List Token) : Prop :=
  tokens.IsChain fun token next => token.isNumber = true → next.isDelimiter = true

theorem Spaced.cons {token : Token} {more : List Token} (plain : token.isNumber = false)
    (spaced : Spaced more) : Spaced (token :: more) :=
  List.IsChain.cons spaced fun _ _ number => by rw [plain] at number; cases number

theorem Spaced.append {first second : List Token} (spaced : Spaced first) (later : Spaced second)
    (delimited : ∀ token ∈ second.head?, token.isDelimiter = true) : Spaced (first ++ second) :=
  List.IsChain.append spaced later fun _ _ token head _ => delimited token head

theorem lex?_append {tokens : List Token} (exact : ∀ token ∈ tokens, token.Exact)
    (spaced : Spaced tokens) {rest : List Char} (ends : Ends rest) :
    Json.lex? (tokens.flatMap write ++ rest) = (Json.lex? rest).map (tokens ++ ·) := by
  induction tokens with
  | nil => simp
  | cons token more ih =>
    have behind : token.isNumber = true → Ends (more.flatMap write ++ rest) := by
      intro number
      cases more with
      | nil => exact ends
      | cons next later =>
        rw [List.flatMap_cons, List.append_assoc]
        exact isDelimiter.ends (spaced.rel number) _
    have first := (exact token (by simp)).lex? behind
    have later := ih (fun other member => exact other (by simp [member])) spaced.tail
    rw [List.flatMap_cons, List.append_assoc, first, later, Option.map_map]
    rfl

theorem lex?_flatMap {tokens : List Token} (exact : ∀ token ∈ tokens, token.Exact)
    (spaced : Spaced tokens) : Json.lex? (tokens.flatMap write) = some tokens := by
  have ends : Ends [] := fun c head => by cases head
  have read := lex?_append exact spaced ends
  rw [List.append_nil, lex?_nil] at read
  rw [read]
  simp

end Token

end LayeredEnv.Json
