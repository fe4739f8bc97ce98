/-!
# Decimal values

Decimal numbers as they are written, and the double nearest to each.
-/

namespace SourceAtlas.Number

/-- A number written in decimal: `digits * 10 ^ exponent`, with a sign. -/
structure Decimal where
  negative : Bool
  digits : Nat
  exponent : Int
  deriving DecidableEq, Repr

def infinity : Float := 1.0 / 0.0

def notANumber : Float := 0.0 / 0.0

/-- How many decimal digits a number has. -/
def digitCount (n : Nat) : Nat := (Nat.toDigits 10 n).length

namespace Decimal

/-- The double nearest to a decimal magnitude. Beyond every double it is infinite and below half
the least one it is zero. -/
def magnitude (digits : Nat) (exponent : Int) : Float :=
  if digits == 0 then 0
  else
    let size := digitCount digits + exponent
    if 310 < size then infinity
    else if size < -330 then 0
    else if exponent < 0 then Float.ofScientific digits true exponent.natAbs
    else Float.ofScientific digits false exponent.natAbs

/-- The double nearest to a decimal number. -/
def toFloat (d : Decimal) : Float :=
  let x := magnitude d.digits d.exponent
  if d.negative then -x else x

end Decimal

/-- The double nearest to an integer, or `none` when it lies beyond every double. -/
def floatOfInt? (n : Int) : Option Float :=
  let x := Decimal.toFloat ⟨n < 0, n.natAbs, 0⟩
  if x.isInf then none else some x

end SourceAtlas.Number
