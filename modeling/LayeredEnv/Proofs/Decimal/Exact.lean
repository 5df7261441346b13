import LayeredEnv.Decimal.Binary64

set_option autoImplicit false

namespace LayeredEnv.Decimal

namespace Magnitude

theorem one_pos : 0 < one := Nat.pow_pos Nat.two_pos

theorem spacing_pos (units : Magnitude) : 0 < spacing units := Nat.pow_pos Nat.two_pos

theorem divEven_of_mul (quotient : Nat) {den : Nat} (positive : 0 < den) :
    divEven (quotient * den) den = quotient := by
  have above : ¬ den < 2 * 0 := by omega
  have apart : (2 * 0 == den) = false := beq_eq_false_iff_ne.mpr (by omega)
  simp only [divEven, Nat.mul_div_cancel quotient positive, Nat.mul_mod_left, above, apart,
    decide_false, Bool.false_and, Bool.or_self, Bool.false_eq_true, if_false]

theorem round?_of_dvd {units : Magnitude} {den : Nat} (positive : 0 < den)
    (even : spacing units ∣ units) (small : units < limit) :
    round? (units * den) den = some units := by
  obtain ⟨quotient, same⟩ := even
  have multiple : units * den = quotient * (den * spacing units) := by
    calc units * den = spacing units * quotient * den := by rw [← same]
      _ = quotient * (den * spacing units) := by
        rw [Nat.mul_comm (spacing units), Nat.mul_assoc, Nat.mul_comm den]
  have steps : 0 < den * spacing units := Nat.mul_pos positive (spacing_pos units)
  have whole : divEven (units * den) (den * spacing units) * spacing units = units := by
    rw [multiple, divEven_of_mul quotient steps, Nat.mul_comm]
    exact same.symm
  have quotient_eq : units * den / den = units := Nat.mul_div_cancel units positive
  simp only [round?, quotient_eq, whole, small, if_true]

-- For any scale in the place of the actual one, so that no power has to be computed.
theorem spacing_dvd {n scale : Nat} (small : n < Binary64.safeBound) :
    spacing (n * Nat.pow 2 scale) ∣ n * Nat.pow 2 scale := by
  by_cases zero : n = 0
  next =>
    rw [zero, Nat.zero_mul]
    exact Nat.dvd_zero _
  next =>
    have positive : 0 < Nat.pow 2 scale := Nat.pow_pos Nat.two_pos
    have bound : n * Nat.pow 2 scale < Nat.pow 2 (53 + scale) := by
      have split : Nat.pow 2 (53 + scale) = Nat.pow 2 53 * Nat.pow 2 scale := Nat.pow_add 2 53 scale
      rw [split]
      exact Nat.mul_lt_mul_of_pos_right small positive
    have top : (n * Nat.pow 2 scale).log2 < 53 + scale :=
      (Nat.log2_lt (Nat.mul_ne_zero zero (Nat.ne_of_gt positive))).mpr bound
    have fine : spacing (n * Nat.pow 2 scale) ∣ Nat.pow 2 scale := Nat.pow_dvd_pow 2 (by omega)
    exact Nat.dvd_trans fine (Nat.dvd_mul_left _ n)

theorem mul_pow_lt {n bits scale top : Nat} (small : n < Nat.pow 2 bits)
    (room : bits + scale ≤ top) : n * Nat.pow 2 scale < Nat.pow 2 top := by
  calc n * Nat.pow 2 scale < Nat.pow 2 bits * Nat.pow 2 scale :=
        Nat.mul_lt_mul_of_pos_right small (Nat.pow_pos Nat.two_pos)
    _ = Nat.pow 2 (bits + scale) := (Nat.pow_add 2 bits scale).symm
    _ ≤ Nat.pow 2 top := Nat.pow_le_pow_right Nat.two_pos room

theorem round?_quotient {n den : Nat} (positive : 0 < den) (small : n < Binary64.safeBound) :
    round? (n * one * den) den = some (n * one) :=
  round?_of_dvd positive (spacing_dvd small) (mul_pow_lt small (by omega))

theorem round?_of_lt {n : Nat} (small : n < Binary64.safeBound) :
    round? (n * one) 1 = some (n * one) := by
  have whole : n * one * 1 = n * one := Nat.mul_one _
  rw [← whole, round?_quotient Nat.one_pos small, whole]

theorem add?_of_lt {a b : Nat} (small : a + b < Binary64.safeBound) :
    add? (a * one) (b * one) = some ((a + b) * one) := by
  rw [add?, ← Nat.add_mul, round?_of_lt small]

theorem mul?_of_lt {a b : Nat} (small : a * b < Binary64.safeBound) :
    mul? (a * one) (b * one) = some (a * b * one) := by
  have product (unit : Nat) : a * unit * (b * unit) = a * b * unit * unit := by ac_rfl
  rw [mul?, product, round?_quotient one_pos small]

theorem digitCount_le {n places : Nat} (small : n < Binary64.safeBound) :
    digitCount (n * Nat.pow 10 places) ≤ 16 + places := by
  have bound : n < Nat.pow 10 16 := Nat.lt_trans small (by decide)
  have split : Nat.pow 10 (16 + places) = Nat.pow 10 16 * Nat.pow 10 places := Nat.pow_add 10 16 places
  apply (Nat.length_toDigits_le_iff (by decide) (by omega)).mpr
  exact Nat.lt_of_lt_of_eq (Nat.mul_lt_mul_of_pos_right bound (Nat.pow_pos (by decide))) split.symm

theorem places_le_digitCount {n : Nat} (positive : 0 < n) (places : Nat) :
    places ≤ digitCount (n * Nat.pow 10 places) := by
  by_cases none : places = 0
  next => omega
  next =>
    have large : ¬ n * Nat.pow 10 places < Nat.pow 10 places :=
      Nat.not_lt.mpr (Nat.le_mul_of_pos_left _ positive)
    have longer : ¬ digitCount (n * Nat.pow 10 places) ≤ places := fun fits =>
      large ((Nat.length_toDigits_le_iff (by decide) (Nat.pos_of_ne_zero none)).mp fits)
    omega

theorem ofDecimal?_of_lt {n : Nat} (small : n < Binary64.safeBound) (places : Nat) :
    ofDecimal? (n * Nat.pow 10 places) (-(places : Int)) = some (n * one) := by
  have power : 0 < Nat.pow 10 places := Nat.pow_pos (by decide)
  by_cases zero : n = 0
  next =>
    subst zero
    simp [ofDecimal?]
  next =>
    have short : digitCount (n * Nat.pow 10 places) ≤ 16 + places := digitCount_le small
    have long := places_le_digitCount (Nat.pos_of_ne_zero zero) places
    have filled : n * Nat.pow 10 places ≠ 0 := Nat.mul_ne_zero zero (Nat.ne_of_gt power)
    have inside : ¬ (-(places : Int) + digitCount (n * Nat.pow 10 places) < -400) := by omega
    have bounded : ¬ (400 < -(places : Int) + digitCount (n * Nat.pow 10 places)) := by omega
    rw [ofDecimal?]
    simp only [filled, inside, bounded, decide_false, Bool.false_eq_true, if_false, Bool.or_self]
    split
    next whole =>
      have none : places = 0 := by omega
      have plain : n * Nat.pow 10 0 * Nat.pow 10 (-((0 : Nat) : Int)).toNat = n := by simp
      rw [none, plain]
      exact round?_of_lt small
    next =>
      have scale : (- -(places : Int)).toNat = places := by omega
      have moved (unit power : Nat) : n * power * unit = n * unit * power := by ac_rfl
      rw [scale, moved]
      exact round?_quotient power small

theorem toNat?_mul_one (n : Nat) : toNat? (n * one) = some n := by
  have multiple : ∀ unit : Nat, 0 < unit →
      (if n * unit % unit = 0 then some (n * unit / unit) else none) = some n := by
    intro unit positive
    rw [if_pos (Nat.mul_mod_left n unit), Nat.mul_div_cancel n positive]
  exact multiple one one_pos

end Magnitude

theorem Binary64.toSafeInt?_of_lt {value : Binary64} {n : Nat}
    (whole : value.magnitude.toNat? = some n) (small : n < safeBound) :
    value.toSafeInt? = some (if value.negative then -(n : Int) else n) := by
  rw [toSafeInt?, whole]
  exact if_pos small

theorem Binary64.toSafeInt?_whole {n : Nat} (negative : Bool) (small : n < safeBound) :
    toSafeInt? ⟨negative, n * Magnitude.one⟩ = some (if negative then -(n : Int) else n) :=
  toSafeInt?_of_lt (Magnitude.toNat?_mul_one n) small

theorem Binary64.natAbs_lt {value : Binary64} {n : Int} (found : value.toSafeInt? = some n) :
    n.natAbs < safeBound := by
  unfold toSafeInt? at found
  split at found
  next units _ =>
    split at found
    next small =>
      cases found
      split <;> simpa using small
    next => cases found
  next => cases found

end LayeredEnv.Decimal
