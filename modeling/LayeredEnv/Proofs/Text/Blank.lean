import LayeredEnv.Text.Blank
import Mathlib.Data.List.TakeWhile

set_option autoImplicit false

namespace LayeredEnv.Text

variable {p : Char → Bool} {c : Char}

theorem dropTail_cons (keep : p c = false) (rest : List Char) :
    dropTail p (c :: rest) = c :: dropTail p rest := by
  rw [dropTail, dropTail, List.reverse_cons, List.dropWhile_append]
  split
  next all => simp [keep, List.isEmpty_iff.mp all]
  next => simp

theorem trim_cons (keep : isBlank c = false) (rest : List Char) :
    trim (c :: rest) = c :: dropTail isBlank rest := by
  rw [trim, trimBy, List.dropWhile_cons_of_neg (by simp [keep]), dropTail_cons keep]

theorem dropTail_eq_self_iff {text : List Char} :
    dropTail p text = text ↔ ∀ c ∈ text.getLast?, p c = false := by
  rw [← List.head?_reverse, dropTail, ← List.reverse_inj, List.reverse_reverse]
  cases text.reverse with
  | nil => simp
  | cons last rest =>
    cases drop : p last with
    | false => simp [drop]
    | true =>
      have shorter := (List.dropWhile_sublist (l := rest) p).length_le
      have apart : rest.dropWhile p ≠ last :: rest := fun same => by
        rw [same, List.length_cons] at shorter
        omega
      simp [drop, apart]

theorem head?_trim (text : List Char) : (trim text).head? = text.find? (!isBlank ·) := by
  rw [List.find?_not_eq_head?_dropWhile, trim, trimBy]
  cases dropped : text.dropWhile isBlank with
  | nil => rfl
  | cons c rest =>
    have shown : isBlank c = false := by
      have first : text.find? (!isBlank ·) = some c := by
        rw [List.find?_not_eq_head?_dropWhile, dropped, List.head?_cons]
      simpa using List.find?_some first
    rw [dropTail_cons shown, List.head?_cons, List.head?_cons]

theorem getLast?_dropTail (p : Char → Bool) (text : List Char) :
    (dropTail p text).getLast? = text.reverse.find? (!p ·) := by
  rw [dropTail, List.getLast?_reverse, List.find?_not_eq_head?_dropWhile]

theorem trim_eq_self {text : List Char} (head : ∀ c ∈ text.head?, isBlank c = false)
    (last : ∀ c ∈ text.getLast?, isBlank c = false) : trim text = text := by
  have front : text.dropWhile isBlank = text := by
    cases text with
    | nil => rfl
    | cons c rest => exact List.dropWhile_cons_of_neg (by simp [head c rfl])
  rw [trim, trimBy, front, dropTail_eq_self_iff]
  exact last

theorem dropTail_append {text tail : List Char} (blank : ∀ c ∈ tail, p c = true) :
    dropTail p (text ++ tail) = dropTail p text := by
  have reversed : ∀ c ∈ tail.reverse, p c = true := fun c member => blank c (by simpa using member)
  rw [dropTail, List.reverse_append, List.dropWhile_append_of_pos reversed, dropTail]

theorem trimBy_surrounded {before text behind : List Char}
    (spacing : ∀ c ∈ before ++ behind, p c = true) (keep : ∀ c ∈ text, p c = false) :
    trimBy p (before ++ (text ++ behind)) = text := by
  obtain ⟨front, back⟩ := List.forall_mem_append.mp spacing
  rw [trimBy, List.dropWhile_append_of_pos front]
  cases text with
  | nil =>
    have dropped : (behind ++ []).dropWhile p = [].dropWhile p :=
      List.dropWhile_append_of_pos back
    rw [List.nil_append, ← List.append_nil behind, dropped]
    rfl
  | cons c rest =>
    have whole : (c :: rest ++ behind).dropWhile p = c :: rest ++ behind :=
      List.dropWhile_cons_of_neg (by simp [keep])
    rw [whole, dropTail_append back, dropTail_eq_self_iff]
    exact fun last final => keep last (List.mem_of_getLast? final)

theorem pair_infix_cons {first second : Char} {text : List Char} :
    [first, second] <:+: c :: text ↔
      (c = first ∧ text.head? = some second) ∨ [first, second] <:+: text := by
  rw [List.infix_cons_iff, List.cons_prefix_cons, eq_comm]
  refine or_congr_left (and_congr_right fun _ => ?_)
  cases text with
  | nil => simp
  | cons d text => simp [List.cons_prefix_cons, eq_comm]

end LayeredEnv.Text
