import LayeredEnv.Value.Rendering
import LayeredEnv.Proofs.Text.Blank
import LayeredEnv.Proofs.Value.Dollars
import LayeredEnv.Proofs.Value.Literal

set_option autoImplicit false

namespace LayeredEnv.Value

open Decimal (Binary64 toList_toString)
open Nat (digitChar toDigits)

theorem small_of_number? {text : List Char} {n : Int} (found : number? text = some (.int n)) :
    n.natAbs < Binary64.safeBound := by
  obtain ⟨value, _, same⟩ := Option.map_eq_some_iff.mp found
  unfold numberOf at same
  split at same
  next other safe =>
    cases same
    exact Binary64.natAbs_lt safe
  next => cases same

def radixMarks : List (Char × Nat) :=
  [('x', 16), ('X', 16), ('o', 8), ('O', 8), ('b', 2), ('B', 2)]

theorem radix?_mark {marker : Char} {radix : Nat} (marked : (marker, radix) ∈ radixMarks) :
    radix? marker = some radix ∧ 1 < radix ∧ radix ≤ 16 := by
  have every : ∀ mark ∈ radixMarks, radix? mark.1 = some mark.2 ∧ 1 < mark.2 ∧ mark.2 ≤ 16 := by
    decide
  exact every _ marked

/-- The literals of an integer: decimal ones, with zeros before the digits and behind a point, and
radix ones without a sign, with zeros before the digits and letters in either case. -/
inductive Spelled : Int → List Char → Prop
  | decimal {n : Int} {sign : List Char} (fits : Sign n sign) (zeros : Nat) (point : Option Nat) :
    Spelled n (sign ++ (zeroPadded 10 zeros n.natAbs ++ pointZeros point))
  | radix {marker : Char} {radix : Nat} (marked : (marker, radix) ∈ radixMarks) {n zeros : Nat}
    {digits : List Char} (written : Text.lower digits = zeroPadded radix zeros n) :
    Spelled n ('0' :: marker :: digits)

def decimalAlphabet : List Char := "+-.0123456789".toList

def literalAlphabet : List Char := "+-.xXoO".toList ++ hexAlphabet

theorem decimal_subset {n : Int} {sign : List Char} (fits : Sign n sign) (zeros : Nat)
    (point : Option Nat) :
    sign ++ (zeroPadded 10 zeros n.natAbs ++ pointZeros point) ⊆ decimalAlphabet := by
  have digits : zeroPadded 10 zeros n.natAbs ⊆ decimalAlphabet := by
    have every : ∀ digit < 10, digitChar digit ∈ decimalAlphabet := by decide
    intro c member
    obtain ⟨digit, valid, rfl⟩ := digitChar_of_mem_zeroPadded (by decide) member
    exact every digit valid
  have signs : sign ⊆ decimalAlphabet := by cases fits <;> decide
  have points : pointZeros point ⊆ decimalAlphabet := by
    cases point with
    | none => exact List.nil_subset _
    | some places =>
      refine List.cons_subset.mpr ⟨by decide, fun c member => ?_⟩
      rw [List.eq_of_mem_replicate member]
      decide
  exact List.append_subset.mpr ⟨signs, List.append_subset.mpr ⟨digits, points⟩⟩

theorem digits_subset {radix zeros n : Nat} {digits : List Char} (large : 1 < radix)
    (bounded : radix ≤ 16) (written : Text.lower digits = zeroPadded radix zeros n) :
    digits ⊆ hexAlphabet := by
  intro c member
  have lowered : c.toLower ∈ zeroPadded radix zeros n := written ▸ List.mem_map_of_mem member
  obtain ⟨digit, valid, same⟩ := digitChar_of_mem_zeroPadded large lowered
  exact mem_hexAlphabet (by omega) same

variable {n : Int} {text : List Char}

theorem Spelled.subset (spelled : Spelled n text) : text ⊆ literalAlphabet := by
  cases spelled with
  | decimal fits zeros point =>
    have wider : decimalAlphabet ⊆ literalAlphabet := by decide
    exact List.Subset.trans (decimal_subset fits zeros point) wider
  | radix marked written =>
    obtain ⟨_, large, bounded⟩ := radix?_mark marked
    have every : ∀ mark ∈ radixMarks, mark.1 ∈ literalAlphabet := by decide
    refine List.cons_subset.mpr ⟨by decide, List.cons_subset.mpr ⟨every _ marked, ?_⟩⟩
    exact List.subset_append_of_subset_right _ (digits_subset large bounded written)

theorem Spelled.digit (spelled : Spelled n text) : ∃ c ∈ text, c.isDigit = true := by
  cases spelled with
  | decimal fits zeros point =>
    obtain ⟨c, member⟩ := List.exists_mem_of_ne_nil (toDigits 10 n.natAbs) Nat.toDigits_ne_nil
    exact ⟨c, by simp [zeroPadded, member], Decimal.isDigit_of_mem member⟩
  | radix marked written => exact ⟨'0', by simp, rfl⟩

theorem double?_eq_decimal? (plain : text ⊆ decimalAlphabet) : double? text = decimal? text := by
  have every : ∀ c ∈ decimalAlphabet, radix? c = none := List.all_iff_forall_prop.mp (by decide)
  unfold double?
  split
  next marker rest => rw [every marker (plain (by simp))]
  next => rfl

theorem double?_eq_radix {marker : Char} {radix : Nat} (known : radix? marker = some radix)
    (digits : List Char) :
    double? ('0' :: marker :: digits) = (radixMagnitude? radix digits).map (⟨false, ·⟩) := by
  simp only [double?, known]

theorem Spelled.double? (spelled : Spelled n text) (small : n.natAbs < Binary64.safeBound) :
    (Value.double? text).map numberOf = some (.int n) := by
  cases spelled with
  | decimal fits zeros point =>
    rw [double?_eq_decimal? (decimal_subset fits zeros point)]
    exact decimal?_written small fits zeros point
  | radix marked written =>
    obtain ⟨known, large, bounded⟩ := radix?_mark marked
    rw [Int.natAbs_natCast] at small
    have magnitude := radixMagnitude?_spelled large bounded small written
    rw [double?_eq_radix known, magnitude, Option.map_some, Option.map_some, numberOf,
      Binary64.toSafeInt?_whole false small]
    rfl

theorem toLower_of_isDigit {c : Char} (digit : c.isDigit = true) : c.toLower = c := by
  apply dif_neg
  rintro ⟨upper, _⟩
  have above : 65 ≤ c.toNat := UInt32.le_iff_toNat_le.mp upper
  have bound : c.toNat ≤ 57 := (Char.isDigit_iff_toNat.mp digit).2
  omega

theorem boolean?_of_digit (digit : ∃ c ∈ text, c.isDigit = true) : boolean? text = none := by
  obtain ⟨c, member, digit⟩ := digit
  have kept : c ∈ Text.lower text := List.mem_map.mpr ⟨c, member, toLower_of_isDigit digit⟩
  have other (word : List Char) (letters : word.any Char.isDigit = false) :
      Text.lower text ≠ word := by
    rintro rfl
    exact List.any_eq_false.mp letters c kept digit
  rw [boolean?, if_neg (other _ (by decide)), if_neg (other _ (by decide))]

theorem typed_of_number? {value : Json.Number} (plain : ∀ c ∈ text, c ∉ ['\\', '\x60', '*'])
    (digit : ∃ c ∈ text, c.isDigit = true) (found : number? text = some value) :
    typed (String.ofList text) = .num value := by
  have unescaped : unescapeDollars text = text := by
    have kept := unescapeDollars_plain (fun member => plain _ member (by simp)) []
    rwa [List.append_nil, unescapeDollars, List.append_nil] at kept
  have unquoted : enclosed? text = none := by
    apply if_neg
    intro quoted
    simp only [Bool.and_eq_true, decide_eq_true_eq] at quoted
    exact plain _ (List.mem_of_head? quoted.1) (by simp)
  have unforced : Text.dropLast? '*' text = none := by
    apply if_neg
    intro last
    exact plain _ (List.mem_of_getLast? last) (by simp)
  rw [typed, String.toList_ofList, unescaped, typedPlain, unquoted, unforced,
    boolean?_of_digit digit, found]

theorem typed_spelled (spelled : Spelled n text) (small : n.natAbs < Binary64.safeBound)
    {before behind : List Char} (spacing : ∀ c ∈ before ++ behind, Text.isSpacing c = true) :
    typed (String.ofList (before ++ (text ++ behind))) = .num (.int n) := by
  have characters : ∀ c ∈ literalAlphabet,
      Text.isSpacing c = false ∧ c ∉ ['\\', '\x60', '*'] := List.all_iff_forall_prop.mp (by decide)
  have marks : ∀ c ∈ ['\\', '\x60', '*'], Text.isSpacing c = false :=
    List.all_iff_forall_prop.mp (by decide)
  have literal : ∀ c ∈ text, Text.isSpacing c = false ∧ c ∉ ['\\', '\x60', '*'] :=
    fun c member => characters c (spelled.subset member)
  apply typed_of_number?
  · intro c member mark
    have spaceless : c ∉ before ++ behind := by
      intro outside
      have space := spacing c outside
      rw [marks c mark] at space
      cases space
    simp only [List.mem_append, not_or] at member spaceless
    rcases member with front | inside | back
    · exact spaceless.1 front
    · exact (literal c inside).2 mark
    · exact spaceless.2 back
  · obtain ⟨c, member, digit⟩ := spelled.digit
    exact ⟨c, by simp [member], digit⟩
  · rw [number?, Text.trimBy_surrounded spacing fun c member => (literal c member).1]
    exact spelled.double? small

theorem typed_toString {n : Int} (small : n.natAbs < Binary64.safeBound) :
    typed (toString n) = .num (.int n) := by
  have spelled : Spelled n (toString n).toList := by
    have digits : zeroPadded 10 0 n.natAbs ++ pointZeros none = toDigits 10 n.natAbs := by
      simp [zeroPadded, pointZeros]
    rw [toList_toString, ← digits]
    split
    next negative => exact .decimal (.minus (Int.le_of_lt negative)) 0 none
    next positive => exact .decimal (.none (Int.not_lt.mp positive)) 0 none
  have alone : ∀ c ∈ ([] : List Char) ++ [], Text.isSpacing c = true := by simp
  simpa using typed_spelled spelled small alone

/-- Every literal of an integer that doubles hold exactly, with any spacing around it, is typed as the
integer, and rendered as its shortest decimal literal. -/
theorem spelled_integer_typed {n : Int} (safe : n.natAbs ≤ 9007199254740991) {text : List Char}
    (spelled : Spelled n text) {before behind : List Char}
    (spacing : ∀ c ∈ before ++ behind, Text.isSpacing c = true) :
    typed (String.ofList (before ++ (text ++ behind))) = .num (.int n) ∧
      Json.render (typed (String.ofList (before ++ (text ++ behind)))) = toString n := by
  have small : n.natAbs < Binary64.safeBound := Nat.lt_succ_of_le safe
  have same := typed_spelled spelled small spacing
  exact ⟨same, by rw [same, Json.render]⟩

-- The least and the greatest of these integers.
theorem extreme_integers_typed :
    Spelled (-9007199254740991) "-0009007199254740991.00".toList ∧
      Spelled 9007199254740991 "0X001fFfFfFfFfFfFf".toList ∧
      typed "\u2003-0009007199254740991.00\uFEFF" = .num (.int (-9007199254740991)) ∧
      Json.render (typed "0X001fFfFfFfFfFfFf\r\n") = "9007199254740991" := by
  have least : Spelled (-9007199254740991) "-0009007199254740991.00".toList :=
    .decimal (.minus (by decide)) 3 (some 2)
  have greatest : Spelled (9007199254740991 : Nat) "0X001fFfFfFfFfFfFf".toList := by
    have marked : ('X', 16) ∈ radixMarks := by decide
    have written : Text.lower "001fFfFfFfFfFfFf".toList = zeroPadded 16 2 9007199254740991 := by
      decide +kernel
    exact .radix marked written
  have front : ∀ c ∈ ['\u2003'] ++ ['\uFEFF'], Text.isSpacing c = true :=
    List.all_iff_forall_prop.mp (by decide)
  have back : ∀ c ∈ [] ++ ['\r', '\n'], Text.isSpacing c = true :=
    List.all_iff_forall_prop.mp (by decide)
  exact ⟨least, greatest, (spelled_integer_typed (by decide) least front).1,
    (spelled_integer_typed (by decide) greatest back).2⟩

end LayeredEnv.Value
