import LayeredEnv.Value.Typing
import LayeredEnv.Proofs.Decimal.Digits
import LayeredEnv.Proofs.Decimal.Exact
import Mathlib.Data.Bool.AllAny
import Mathlib.Data.List.TakeWhile

set_option autoImplicit false

namespace LayeredEnv.Value

open Decimal (Binary64 Magnitude isDigit_of_mem)
open Nat (digitChar toDigits)

def zeroPadded (radix zeros n : Nat) : List Char := List.replicate zeros '0' ++ toDigits radix n

theorem digitChar_of_mem_toDigits {radix n : Nat} (large : 1 < radix) {c : Char}
    (member : c ∈ toDigits radix n) : ∃ digit < radix, c = digitChar digit := by
  induction n using Nat.strongRecOn with
  | ind n ih =>
    by_cases single : n < radix
    next =>
      rw [Nat.toDigits_of_lt_base single, List.mem_singleton] at member
      exact ⟨n, single, member⟩
    next =>
      have more : radix ≤ n := by omega
      rw [Nat.toDigits_of_base_le large more, List.mem_append, List.mem_singleton] at member
      rcases member with first | last
      · exact ih (n / radix) (Nat.div_lt_self (by omega) large) first
      · exact ⟨n % radix, Nat.mod_lt n (by omega), last⟩

theorem digitChar_of_mem_zeroPadded {radix zeros n : Nat} (large : 1 < radix) {c : Char}
    (member : c ∈ zeroPadded radix zeros n) : ∃ digit < radix, c = digitChar digit := by
  rcases List.mem_append.mp member with zero | digit
  · exact ⟨0, by omega, List.eq_of_mem_replicate zero⟩
  · exact digitChar_of_mem_toDigits large digit

inductive Sign (n : Int) : List Char → Prop
  | none (positive : 0 ≤ n) : Sign n []
  | plus (positive : 0 ≤ n) : Sign n ['+']
  | minus (negative : n ≤ 0) : Sign n ['-']

def pointZeros : Option Nat → List Char
  | none => []
  | some zeros => '.' :: List.replicate zeros '0'

theorem isDigit_of_mem_zeroPadded {zeros n : Nat} :
    ∀ c ∈ zeroPadded 10 zeros n, c.isDigit = true := by
  intro c member
  rcases List.mem_append.mp member with zero | digit
  · rw [List.eq_of_mem_replicate zero]
    rfl
  · exact isDigit_of_mem digit

theorem literal?_zeroPadded (zeros n : Nat) (point : Option Nat) :
    literal? (zeroPadded 10 zeros n ++ pointZeros point) =
      some ⟨zeroPadded 10 zeros n, List.replicate (point.getD 0) '0', 0⟩ := by
  have digits : ∀ c ∈ zeroPadded 10 zeros n, c.isDigit = true := isDigit_of_mem_zeroPadded
  have filled : (zeroPadded 10 zeros n).isEmpty = false := by
    simp [zeroPadded, Nat.toDigits_ne_nil]
  cases point with
  | none =>
    have whole := List.takeWhile_eq_self_iff.mpr digits
    have behind := List.dropWhile_eq_nil_iff.mpr digits
    simp [literal?, pointZeros, whole, behind, filled, exponent?]
  | some places =>
    have whole : (zeroPadded 10 zeros n ++ pointZeros (some places)).takeWhile Char.isDigit =
        zeroPadded 10 zeros n := by
      rw [List.takeWhile_append_of_pos digits, pointZeros,
        List.takeWhile_cons_of_neg (by decide), List.append_nil]
    have behind : (zeroPadded 10 zeros n ++ pointZeros (some places)).dropWhile Char.isDigit =
        '.' :: List.replicate places '0' := by
      rw [List.dropWhile_append_of_pos digits, pointZeros, List.dropWhile_cons_of_neg (by decide)]
    have fraction : ∀ c ∈ List.replicate places '0', c.isDigit = true := by simp
    rw [literal?, whole, behind]
    simp [filled, exponent?]

theorem digitsValue_zeroPadded (zeros n places : Nat) :
    digitsValue (zeroPadded 10 zeros n ++ List.replicate places '0') = n * Nat.pow 10 places := by
  have leading : Nat.ofDigitChars 10 (List.replicate zeros '0') 0 = 0 := by
    rw [Nat.ofDigitChars_replicate_zero, Nat.mul_zero]
  have shifted : Nat.ofDigitChars 10 (List.replicate places '0') n = n * Nat.pow 10 places :=
    Nat.ofDigitChars_replicate_zero.trans (Nat.mul_comm _ n)
  rw [digitsValue, Decimal.foldl_digit, zeroPadded, Nat.ofDigitChars_append,
    Nat.ofDigitChars_append, leading, Nat.ofDigitChars_ten_toDigits, shifted]

theorem magnitude?_zeroPadded {n : Nat} (small : n < Binary64.safeBound) (zeros places : Nat) :
    Literal.magnitude? ⟨zeroPadded 10 zeros n, List.replicate places '0', 0⟩ =
      some (n * Magnitude.one) := by
  have exponent : (0 : Int) - (List.replicate places '0').length = -(places : Int) := by simp
  rw [Literal.magnitude?, digitsValue_zeroPadded, exponent]
  exact Magnitude.ofDecimal?_of_lt small places

theorem signed_zeroPadded (zeros n : Nat) (behind : List Char) :
    signed (zeroPadded 10 zeros n ++ behind) = (false, zeroPadded 10 zeros n ++ behind) := by
  have digits : ∀ c ∈ zeroPadded 10 zeros n, c.isDigit = true := isDigit_of_mem_zeroPadded
  obtain ⟨first, rest, same⟩ : ∃ first rest, zeroPadded 10 zeros n = first :: rest :=
    List.exists_cons_of_ne_nil (by simp [zeroPadded, Nat.toDigits_ne_nil])
  have digit := digits first (by simp [same])
  rw [same, List.cons_append]
  unfold signed
  split
  next minus =>
    cases minus
    cases digit
  next plus =>
    cases plus
    cases digit
  next => rfl

theorem decimal?_written {n : Int} (small : n.natAbs < Binary64.safeBound) {sign : List Char}
    (fits : Sign n sign) (zeros : Nat) (point : Option Nat) :
    (decimal? (sign ++ (zeroPadded 10 zeros n.natAbs ++ pointZeros point))).map numberOf =
      some (.int n) := by
  -- Whether there is a minus, which zero can have as well.
  obtain ⟨negative, parts, back⟩ : ∃ negative,
      signed (sign ++ (zeroPadded 10 zeros n.natAbs ++ pointZeros point)) =
        (negative, zeroPadded 10 zeros n.natAbs ++ pointZeros point) ∧
      (if negative = true then -(n.natAbs : Int) else n.natAbs) = n := by
    cases fits with
    | none positive => exact ⟨false, signed_zeroPadded _ _ _, Int.natAbs_of_nonneg positive⟩
    | plus positive => exact ⟨false, rfl, Int.natAbs_of_nonneg positive⟩
    | minus negative => exact ⟨true, rfl, by rw [if_pos rfl]; omega⟩
  have read : decimal? (sign ++ (zeroPadded 10 zeros n.natAbs ++ pointZeros point)) =
      some ⟨negative, n.natAbs * Magnitude.one⟩ := by
    rw [decimal?, parts]
    simp only [literal?_zeroPadded, Option.bind_eq_bind, Option.bind_some,
      magnitude?_zeroPadded small]
  rw [read, Option.map_some, numberOf, Binary64.toSafeInt?_whole negative small, back]

def hexAlphabet : List Char := "0123456789abcdefABCDEF".toList

theorem mem_hexAlphabet {c : Char} {digit : Nat} (valid : digit < 16)
    (spelled : c.toLower = digitChar digit) : c ∈ hexAlphabet := by
  by_cases low : c.toNat < 91
  next =>
    have every : ∀ k < 91, ∀ digit < 16, (Char.ofNat k).toLower = digitChar digit →
        Char.ofNat k ∈ hexAlphabet := by decide +kernel
    have here := every c.toNat low digit valid
    rw [Char.ofNat_toNat] at here
    exact here spelled
  next =>
    -- Behind the letter `Z` no character has another lower case.
    have kept : c.toLower = c := dif_neg fun upper => low (by
      have last : c.toNat ≤ 90 := UInt32.le_iff_toNat_le.mp upper.2
      omega)
    have every : ∀ digit < 16, digitChar digit ∈ hexAlphabet := by decide
    rw [← kept, spelled]
    exact every digit valid

theorem digitIn?_spelled {radix digit : Nat} {c : Char} (valid : digit < radix)
    (bounded : radix ≤ 16) (spelled : c.toLower = digitChar digit) :
    digitIn? radix c = some digit := by
  have every : ∀ c ∈ hexAlphabet, ∀ digit < 16, c.toLower = digitChar digit →
      Json.hexValue? c = some digit := List.all_iff_forall_prop.mp (by decide +kernel)
  have hexadecimal : digit < 16 := by omega
  rw [digitIn?, every c (mem_hexAlphabet hexadecimal spelled) digit hexadecimal spelled]
  simp [valid]

def radixStep (radix : Nat) (total : Magnitude) (c : Char) : Option Magnitude := do
  let scaled ← Magnitude.mul? total (radix * Magnitude.one)
  scaled.add? ((← digitIn? radix c) * Magnitude.one)

theorem radixStep_spelled {radix total digit : Nat} {c : Char} (valid : digit < radix)
    (bounded : radix ≤ 16) (spelled : c.toLower = digitChar digit)
    (small : total * radix + digit < Binary64.safeBound) :
    radixStep radix (total * Magnitude.one) c =
      some ((total * radix + digit) * Magnitude.one) := by
  have scaled : total * radix < Binary64.safeBound := by omega
  rw [radixStep, Magnitude.mul?_of_lt scaled, digitIn?_spelled valid bounded spelled,
    Option.bind_eq_bind, Option.bind_some, Option.bind_some, Magnitude.add?_of_lt small]

theorem foldlM_radixStep_singleton (radix : Nat) (total : Magnitude) (c : Char) :
    [c].foldlM (radixStep radix) total = radixStep radix total c := by
  simp

section

variable {radix : Nat} (large : 1 < radix) (bounded : radix ≤ 16)

include large bounded

theorem radixStep_first {digit : Nat} {c : Char} (valid : digit < radix)
    (spelled : c.toLower = digitChar digit) :
    radixStep radix 0 c = some (digit * Magnitude.one) := by
  have small : 0 * radix + digit < Binary64.safeBound := by
    have least : 16 < Binary64.safeBound := by decide
    omega
  have step := radixStep_spelled valid bounded spelled small
  rwa [Nat.zero_mul, Nat.zero_mul, Nat.zero_add] at step

theorem foldlM_radixStep_zeros {zeros : Nat} {text : List Char}
    (spelled : Text.lower text = List.replicate zeros '0') :
    text.foldlM (radixStep radix) 0 = some 0 := by
  induction text generalizing zeros with
  | nil => rfl
  | cons c rest ih =>
    cases zeros with
    | zero => cases spelled
    | succ zeros =>
      obtain ⟨here, later⟩ := List.cons.inj spelled
      have step := radixStep_first large bounded (by omega : 0 < radix) here
      rw [Nat.zero_mul] at step
      rw [List.foldlM_cons, step]
      exact ih later

theorem foldlM_radixStep_digits {n : Nat} (small : n < Binary64.safeBound) {text : List Char}
    (spelled : Text.lower text = toDigits radix n) :
    text.foldlM (radixStep radix) 0 = some (n * Magnitude.one) := by
  induction n using Nat.strongRecOn generalizing text with
  | ind n ih =>
    by_cases single : n < radix
    next =>
      rw [Nat.toDigits_of_lt_base single] at spelled
      obtain ⟨c, rfl, digit⟩ := List.map_eq_singleton_iff.mp spelled
      rw [foldlM_radixStep_singleton, radixStep_first large bounded single digit]
    next =>
      have more : radix ≤ n := by omega
      rw [Nat.toDigits_of_base_le large more] at spelled
      obtain ⟨first, last, rfl, digits, ends⟩ := List.map_eq_append_iff.mp spelled
      obtain ⟨c, rfl, digit⟩ := List.map_eq_singleton_iff.mp ends
      have less : n / radix < n := Nat.div_lt_self (by omega) large
      have parts : n / radix * radix + n % radix = n := Nat.div_add_mod' n radix
      have step := radixStep_spelled (Nat.mod_lt n (by omega)) bounded digit (parts.symm ▸ small)
      rw [parts] at step
      rw [List.foldlM_append, ih (n / radix) less (by omega) digits, Option.bind_eq_bind,
        Option.bind_some, foldlM_radixStep_singleton, step]

theorem radixMagnitude?_spelled {n : Nat} (small : n < Binary64.safeBound) {zeros : Nat}
    {text : List Char} (spelled : Text.lower text = zeroPadded radix zeros n) :
    radixMagnitude? radix text = some (n * Magnitude.one) := by
  obtain ⟨front, digits, rfl, padding, written⟩ := List.map_eq_append_iff.mp spelled
  have filled : (front ++ digits).isEmpty = false := by
    have some : digits ≠ [] := by
      rintro rfl
      exact Nat.toDigits_ne_nil written.symm
    simp [some]
  change (if (front ++ digits).isEmpty = true then none
    else (front ++ digits).foldlM (radixStep radix) 0) = _
  rw [filled, if_neg (by decide), List.foldlM_append,
    foldlM_radixStep_zeros large bounded padding]
  exact foldlM_radixStep_digits large bounded small written

end

end LayeredEnv.Value
