import SourceAtlas.Number.Decimal

/-!
# Writing doubles

The fewest decimal digits that read back as a double, and digits to a fixed number of places. All
arithmetic is on integers: a double is a mantissa times a power of two.
-/

namespace SourceAtlas.Number

/-- A finite magnitude `mantissa * 2 ^ power`. `narrow` tells that the gap below is half the gap
above. -/
structure Binary where
  mantissa : Nat
  power : Int
  narrow : Bool

/-- The value of the leading bit of a mantissa, which the bits of a double leave out. -/
def hidden : Nat := 0x10000000000000

/-- The magnitude of a finite double. -/
def Binary.ofFloat (x : Float) : Binary :=
  let bits := x.toBits.toNat
  let fraction := bits % hidden
  let exponent : Nat := bits / hidden % 0x800
  if exponent == 0 then ⟨fraction, -1074, false⟩
  else ⟨fraction + hidden, (exponent : Int) - 1075, fraction == 0 && 1 < exponent⟩

def isNegative (x : Float) : Bool := x.toBits.toNat / 0x8000000000000000 == 1

/-- A ratio of natural numbers. -/
structure Ratio where
  num : Nat
  den : Nat

/-- `n * 2 ^ p` as a ratio. -/
def Ratio.scaled (n : Nat) (p : Int) : Ratio :=
  if p < 0 then ⟨n, Nat.pow 2 p.natAbs⟩ else ⟨n * Nat.pow 2 p.natAbs, 1⟩

/-- The place of the leading digit of a ratio: the power of ten at or below it. -/
def leadingPlace (r : Ratio) : Int :=
  if r.den ≤ r.num then digitCount (r.num / r.den) - 1
  else -(((List.range 400).find? fun k => r.den ≤ r.num * Nat.pow 10 (k + 1)).getD 400 + 1)

/-- The part of a ratio in units of `10 ^ place`, rounded down, with what is left over the
divisor. -/
def unitsBelow (r : Ratio) (place : Int) : Nat × Nat × Nat :=
  let (n, d) := if place < 0 then (r.num * Nat.pow 10 place.natAbs, r.den)
    else (r.num, r.den * Nat.pow 10 place.natAbs)
  (n / d, n % d, d)

/-- Whether `k * 10 ^ place` reads back as the magnitude: it lies between the midpoints to the
neighbours, or on one when the mantissa is even. -/
def readsBack (b : Binary) (k : Nat) (place : Int) : Bool :=
  let low := if b.narrow then 4 * b.mantissa - 1 else 4 * b.mantissa - 2
  let high := 4 * b.mantissa + 2
  -- compare `k * 10 ^ place` with `n * 2 ^ (power - 2)`
  let (k, tens) := if place < 0 then (k, Nat.pow 10 place.natAbs)
    else (k * Nat.pow 10 place.natAbs, 1)
  let twos := b.power - 2
  let (k, scale) := if twos < 0 then (k * Nat.pow 2 twos.natAbs, tens)
    else (k, tens * Nat.pow 2 twos.natAbs)
  let even := b.mantissa % 2 == 0
  (low * scale < k || (even && low * scale == k)) &&
    (k < high * scale || (even && k == high * scale))

/-- With `n` digits, the one of the two neighbours on the decimal grid that reads back; of two the
nearer, of two equally near the even one. -/
def digitsOf? (b : Binary) (n : Nat) : Option (Nat × Int) :=
  let r := Ratio.scaled b.mantissa b.power
  let place := leadingPlace r - n + 1
  let (k, left, d) := unitsBelow r place
  let down := readsBack b k place
  let up := readsBack b (k + 1) place
  if down && up then
    some (if 2 * left < d || (2 * left == d && k % 2 == 0) then k else k + 1, place)
  else if down then some (k, place)
  else if up then some (k + 1, place)
  else none

/-- The fewest digits that read back, with the place of the last of them. -/
def shortest (b : Binary) : Nat × Int :=
  ((List.range 17).findSome? fun n => digitsOf? b (n + 1)).getD (b.mantissa, 0)

/-- Zeros. -/
def zeros (n : Nat) : List Char := List.replicate n '0'

/-- Digits with the last at a place, written out with a point. -/
def positional (ds : List Char) (place : Int) : String :=
  String.ofList <|
    if 0 ≤ place then ds ++ zeros place.natAbs ++ ['.', '0']
    else
      let n := place.natAbs
      if n < ds.length then ds.take (ds.length - n) ++ '.' :: ds.drop (ds.length - n)
      else '0' :: '.' :: zeros (n - ds.length) ++ ds

/-- Digits with a power of ten for the first of them. -/
def scientific (ds : List Char) (lead : Int) : String :=
  let power := Nat.toDigits 10 lead.natAbs
  String.ofList <|
    ds.take 1 ++ (if ds.length ≤ 1 then [] else '.' :: ds.drop 1) ++
      'e' :: (if lead < 0 then '-' else '+') :: zeros (2 - power.length) ++ power

/-- The text of a double: the fewest digits that read back, positional from `10 ^ -4` up to below
`10 ^ 16`. -/
def floatText (x : Float) : String :=
  if x.isNaN then "nan"
  else
    let sign := if isNegative x then "-" else ""
    if x.isInf then sign ++ "inf"
    else if x == 0 then sign ++ "0.0"
    else
      let (n, place) := shortest (.ofFloat x)
      let all := Nat.toDigits 10 n
      let ds := (all.reverse.dropWhile (· == '0')).reverse
      let place := place + (all.length - ds.length : Nat)
      let lead := place + ds.length - 1
      sign ++ if -4 ≤ lead && lead < 16 then positional ds place else scientific ds lead

/-- A quotient rounded to the nearest integer, a half to the even one. -/
def roundDiv (n d : Nat) : Nat :=
  let q := n / d
  let r := n % d
  if 2 * r < d || (2 * r == d && q % 2 == 0) then q else q + 1

/-- A finite double to a fixed number of places after the point. -/
def fixedText (places : Nat) (x : Float) : String :=
  let b := Binary.ofFloat x
  let r := Ratio.scaled b.mantissa b.power
  let ds := Nat.toDigits 10 (roundDiv (r.num * Nat.pow 10 places) r.den)
  let ds := zeros (places + 1 - ds.length) ++ ds
  (if isNegative x then "-" else "") ++
    String.ofList (ds.take (ds.length - places) ++ '.' :: ds.drop (ds.length - places))

/-- A finite double to at most `n` digits, half a unit of the last one rounded up: positional from
`10 ^ -4` up to below `10 ^ n`, and always with a digit behind the point. -/
def digitsText (n : Nat) (x : Float) : String :=
  if x == 0 then "0.0"
  else
    let b := Binary.ofFloat x
    let r := Ratio.scaled b.mantissa b.power
    let place := leadingPlace r - n + 1
    let (k, left, d) := unitsBelow r place
    let all := Nat.toDigits 10 (if d ≤ 2 * left then k + 1 else k)
    let ds := (all.reverse.dropWhile (· == '0')).reverse
    let place := place + (all.length - ds.length : Nat)
    let lead := place + ds.length - 1
    (if isNegative x then "-" else "") ++
      if -4 ≤ lead && lead < n then positional ds place
      else scientific (ds ++ zeros (2 - ds.length)) lead

end SourceAtlas.Number
