import LayeredEnv.Decimal.Shortest

set_option autoImplicit false

namespace LayeredEnv.Decimal

structure Layout where
  plainFrom : Int
  plainTo : Int
  whole : String
  zero : String
  negativeZero : String
  tie : Tie

namespace Layout

def positional (layout : Layout) (digits : List Char) (point : Int) : String :=
  if point ≤ 0 then
    String.ofList ('0' :: '.' :: (List.replicate (-point).toNat '0' ++ digits))
  else if digits.length ≤ point.toNat then
    String.ofList (digits ++ List.replicate (point.toNat - digits.length) '0') ++ layout.whole
  else
    String.ofList (digits.take point.toNat ++ '.' :: digits.drop point.toNat)

def exponential (digits : List Char) (exponent : Int) : String :=
  let mantissa := match digits with
    | [] => ""
    | [d] => d.toString
    | d :: rest => String.ofList (d :: '.' :: rest)
  let sign := if exponent < 0 then "-" else "+"
  mantissa ++ "e" ++ sign ++ toString exponent.natAbs

def magnitude (layout : Layout) (units : Magnitude) : String :=
  let shortest := Digits.shortest layout.tie units
  let digits := Nat.toDigits 10 shortest.significand
  let exponent := shortest.scientific
  if layout.plainFrom ≤ exponent && exponent ≤ layout.plainTo then
    layout.positional digits (exponent + 1)
  else exponential digits exponent

def write (layout : Layout) (x : Binary64) : String :=
  if x.magnitude = 0 then (if x.negative then layout.negativeZero else layout.zero)
  else if x.negative then "-" ++ layout.magnitude x.magnitude
  else layout.magnitude x.magnitude

end Layout
end LayeredEnv.Decimal
