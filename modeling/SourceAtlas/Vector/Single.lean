import SourceAtlas.Number.Shortest
import SourceAtlas.Vector.Basic

/-!
# Stored vectors

Vectors as they are stored: singles, four bytes each, the lowest byte first.

Models the rounding and the bytes of `_vec_to_bytes`, and `_bytes_to_vec`.
-/

namespace SourceAtlas

open Number

/-- A single by its bits. -/
abbrev Single := UInt32

namespace Single

/-- The magnitude beyond every finite single. -/
def infinite : Nat := 0x7F800000

/-- What one is in the exponent of a magnitude. -/
def step : Nat := 0x800000

/-- `n / 2 ^ k` to the nearest; of two equally near the even one. -/
def roundedShift (n k : Nat) : Nat :=
  let scale := Nat.pow 2 k
  let rest := 2 * (n % scale)
  n / scale + if scale < rest || (rest == scale && n / scale % 2 == 1) then 1 else 0

/-- The magnitude of the single nearest to a magnitude: its last bit counts `2 ^ unit`. -/
def nearest (b : Binary) : Nat :=
  let unit := max (b.power + 29) (-149)
  min ((unit + 149).toNat * step + roundedShift b.mantissa (unit - b.power).toNat) infinite

/-- The single nearest to a double. -/
def ofFloat (x : Float) : Single :=
  if x.isNaN then 0x7FC00000
  else
    let magnitude := if x.isInf then infinite else nearest (.ofFloat x)
    UInt32.ofNat (magnitude + if isNegative x then 0x80000000 else 0)

/-- The magnitude of the double that is the same number as the single of a magnitude. -/
def widened (magnitude : Nat) : Nat :=
  let exponent := magnitude / step
  let fraction := magnitude % step
  if exponent == 0xFF then 0x7FF * Number.hidden + fraction * Nat.pow 2 29
  else
    let mantissa := if exponent == 0 then fraction else fraction + step
    if mantissa == 0 then 0
    else
      -- The leading bit of a mantissa is left out, so that it counts for the exponent.
      let top := Nat.log2 mantissa
      (max exponent 1 + top + 872) * Number.hidden + mantissa * Nat.pow 2 (52 - top)

/-- The double that is the same number. -/
def toFloat (s : Single) : Float :=
  let sign := if 0x80000000 ≤ s.toNat then 0x8000000000000000 else 0
  Float.ofBits (UInt64.ofNat (widened (s.toNat % 0x80000000) + sign))

/-- Neither infinite nor a NaN: the exponent is not all ones. -/
def isFinite (s : Single) : Bool := (s >>> 23) &&& 0xFF != 0xFF

def encode (s : Single) : List UInt8 :=
  [s.toUInt8, (s >>> 8).toUInt8, (s >>> 16).toUInt8, (s >>> 24).toUInt8]

def decode (a b c d : UInt8) : Single :=
  a.toUInt32 ||| (b.toUInt32 <<< 8) ||| (c.toUInt32 <<< 16) ||| (d.toUInt32 <<< 24)

end Single

/-- The bytes of a vector. -/
def encodeVector (v : List Single) : List UInt8 := v.flatMap Single.encode

/-- The vector of bytes. -/
def decodeVector : List UInt8 → List Single
  | a :: b :: c :: d :: rest => .decode a b c d :: decodeVector rest
  | _ => []

end SourceAtlas
