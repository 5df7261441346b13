set_option autoImplicit false

namespace LayeredEnv.Decimal

/-- Magnitude of a double, counted in units of `2 ^ -1074`. -/
abbrev Magnitude := Nat

namespace Magnitude

def one : Magnitude := Nat.pow 2 1074

def limit : Magnitude := Nat.pow 2 2098

def spacing (units : Magnitude) : Nat := Nat.pow 2 (units.log2 - 52)

def divEven (num den : Nat) : Nat :=
  let q := num / den
  let r := num % den
  if den < 2 * r || (2 * r == den && q % 2 == 1) then q + 1 else q

def round? (num den : Nat) : Option Magnitude :=
  let step := spacing (num / den)
  let units := divEven num (den * step) * step
  if units < limit then some units else none

def ofNat? (n : Nat) : Option Magnitude := round? (n * one) 1

def add? (a b : Magnitude) : Option Magnitude := round? (a + b) 1

def mul? (a b : Magnitude) : Option Magnitude := round? (a * b) one

def div? (a b : Magnitude) : Option Magnitude := round? (a * one) b

def digitCount (n : Nat) : Nat := (Nat.toDigits 10 n).length

/-- The double nearest to `significand * 10 ^ exponent`, unless it is out of range. Exponents far
outside the range of doubles are settled by the digit count, before any power is computed. -/
def ofDecimal? (significand : Nat) (exponent : Int) : Option Magnitude :=
  let top := exponent + digitCount significand
  if significand = 0 || top < -400 then some 0
  else if 400 < top then none
  else if 0 ≤ exponent then round? (significand * Nat.pow 10 exponent.toNat * one) 1
  else round? (significand * one) (Nat.pow 10 (-exponent).toNat)

def toNat? (units : Magnitude) : Option Nat :=
  if units % one = 0 then some (units / one) else none

end Magnitude

structure Binary64 where
  negative : Bool
  magnitude : Magnitude
deriving DecidableEq, Repr, Inhabited

namespace Binary64

def safeBound : Nat := Nat.pow 2 53

def toSafeInt? (x : Binary64) : Option Int :=
  match x.magnitude.toNat? with
  | some n => if n < safeBound then some (if x.negative then -(n : Int) else n) else none
  | none => none

end Binary64
end LayeredEnv.Decimal
