import LayeredEnv.Decimal.Binary64

set_option autoImplicit false

namespace LayeredEnv.Decimal

structure Digits where
  significand : Nat
  exponent : Int
deriving DecidableEq, Repr

inductive Tie
  | even
  | up
deriving DecidableEq, Repr

namespace Digits

/-- The reals that round to one double, in quarters of a unit; `closed` says whether the two ends
round to it as well. -/
structure Interval where
  low : Nat
  value : Nat
  high : Nat
  closed : Bool

def Interval.around (units : Magnitude) : Interval :=
  let step := units.spacing
  let below := if units = Nat.pow 2 units.log2 && 1 < step then step else 2 * step
  ⟨4 * units - below, 4 * units, 4 * units + 2 * step, units / step % 2 == 0⟩

def Interval.contains (i : Interval) (point scale : Nat) : Bool :=
  if i.closed then i.low * scale ≤ point && point ≤ i.high * scale
  else i.low * scale < point && point < i.high * scale

/-- The exponent `x` with `10 ^ x ≤ units * 2 ^ -1074 < 10 ^ (x + 1)`, for a positive double. -/
def leading (units : Magnitude) : Int :=
  (Magnitude.digitCount (units * Nat.pow 10 400 / Magnitude.one) : Int) - 401

-- On a grid of multiples of `10 ^ exponent` only the two neighbours of the exact value can be the
-- nearest hit.
def onGrid? (tie : Tie) (i : Interval) (exponent : Int) : Option Nat :=
  let step := 4 * Magnitude.one * Nat.pow 10 exponent.toNat
  let scale := Nat.pow 10 (-exponent).toNat
  let lower := i.value * scale / step
  let rest := i.value * scale % step
  match i.contains (lower * step) scale, i.contains ((lower + 1) * step) scale with
  | false, false => none
  | true, false => some lower
  | false, true => some (lower + 1)
  | true, true =>
    if step < 2 * rest then some (lower + 1)
    else if 2 * rest < step then some lower
    else match tie with
      | .up => some (lower + 1)
      | .even => some (lower + lower % 2)

def trim : Nat → Digits → Digits
  | 0, d => d
  | fuel + 1, d =>
    if d.significand % 10 = 0 then trim fuel ⟨d.significand / 10, d.exponent + 1⟩ else d

def search (tie : Tie) (i : Interval) (top : Int) : Nat → Nat → Option Digits
  | 0, _ => none
  | fuel + 1, count =>
    match onGrid? tie i (top - count) with
    | some significand => some (trim 20 ⟨significand, top - count⟩)
    | none => search tie i top fuel (count + 1)

def shortest (tie : Tie) (units : Magnitude) : Digits :=
  (search tie (.around units) (leading units) 17 0).getD ⟨units, 0⟩

def scientific (d : Digits) : Int :=
  d.exponent + Magnitude.digitCount d.significand - 1

end Digits
end LayeredEnv.Decimal
