import LayeredEnv.Json.Token

set_option autoImplicit false

namespace LayeredEnv.Decimal

open Nat (ofDigitChars toDigits)

theorem foldl_digit (digits : List Char) (start : Nat) :
    digits.foldl (fun value c => value * 10 + Json.digit c) start =
      ofDigitChars 10 digits start := by
  induction digits generalizing start with
  | nil => rfl
  | cons c rest ih => rw [List.foldl_cons, ih, Nat.ofDigitChars_cons, Nat.mul_comm]; rfl

theorem le_ofDigitChars (digits : List Char) (start : Nat) : start ≤ ofDigitChars 10 digits start := by
  rw [Nat.ofDigitChars_eq_ofDigitChars_zero]
  have grown := Nat.le_mul_of_pos_left start (Nat.pow_pos (n := digits.length) (by decide : 0 < 10))
  omega

theorem accumulate_of_lt {digits : List Char} {start : Nat}
    (fits : ofDigitChars 10 digits start < Nat.pow 2 64) :
    Json.accumulate start digits = (ofDigitChars 10 digits start, []) := by
  induction digits generalizing start with
  | nil => rfl
  | cons c rest ih =>
    rw [Nat.ofDigitChars_cons, Nat.mul_comm] at fits ⊢
    have next := le_ofDigitChars rest (start * 10 + Json.digit c)
    rw [Json.accumulate, if_pos (Nat.lt_of_le_of_lt next fits)]
    exact ih fits

theorem isDigit_of_mem {n : Nat} {c : Char} (member : c ∈ toDigits 10 n) : c.isDigit = true :=
  Nat.isDigit_of_mem_toDigits (by decide) (by decide) member

theorem eq_zero_of_head {n : Nat} (head : (toDigits 10 n).head? = some '0') : n = 0 := by
  induction n using Nat.strongRecOn with
  | ind n ih =>
    by_cases small : n < 10
    next =>
      rw [Nat.toDigits_of_lt_base small] at head
      have digit : Nat.digitChar n = '0' := Option.some.inj head
      have every : ∀ k < 10, Nat.digitChar k = '0' → k = 0 := by decide
      exact every n small digit
    next =>
      have large : 10 ≤ n := by omega
      rw [Nat.toDigits_of_base_le (by decide) large] at head
      have first : (toDigits 10 (n / 10)).head? = some '0' := by
        cases digits : toDigits 10 (n / 10) with
        | nil => exact absurd digits Nat.toDigits_ne_nil
        | cons c rest => rwa [digits] at head
      have zero := ih (n / 10) (by omega) first
      omega

theorem toList_toString (n : Int) :
    (toString n).toList =
      if n < 0 then '-' :: toDigits 10 n.natAbs else toDigits 10 n.natAbs := by
  cases n with
  | ofNat m =>
    have sign : ¬ (Int.ofNat m < 0) := by simp
    rw [if_neg sign]
    exact Nat.toList_repr
  | negSucc m =>
    have sign : Int.negSucc m < 0 := Int.negSucc_lt_zero m
    rw [if_pos sign]
    change ("-" ++ (m + 1).repr).toList = _
    rw [String.toList_append, Nat.toList_repr]
    rfl

theorem sign_or_digit {n : Int} {c : Char} (member : c ∈ (toString n).toList) :
    c = '-' ∨ c.isDigit = true := by
  rw [toList_toString] at member
  split at member
  next => exact (List.mem_cons.mp member).imp_right isDigit_of_mem
  next => exact .inr (isDigit_of_mem member)

theorem not_mem_toString {c : Char} (sign : c ≠ '-') (digit : c.isDigit = false) (n : Int) :
    c ∉ (toString n).toList := by
  intro member
  rcases sign_or_digit member with rfl | found
  · exact sign rfl
  · rw [digit] at found
    cases found

end LayeredEnv.Decimal
