import SourceAtlas.Value.Text

/-!
# Settings from values

How the value of a setting becomes a text, an integer, a number or a list of texts.

Models the casts that `Config` applies to values, and `_split_list`.
-/

namespace SourceAtlas

open Number

/-- Why a value does not fit a setting. -/
inductive CastError where
  | invalid
  | wrongType
  | tooLarge
  deriving BEq, DecidableEq, Repr

/-- The integer part of a finite double. -/
def integerPart (x : Float) : Int :=
  let b := Binary.ofFloat x
  let scale := Nat.pow 2 b.power.natAbs
  let n : Nat := if b.power < 0 then b.mantissa / scale else b.mantissa * scale
  if isNegative x then -(n : Int) else n

namespace Value

/-- The value as a text. -/
def castText (v : Value) : Except CastError String :=
  if v.holdsWide then .error .invalid else .ok v.toText

/-- Bytes as the characters of ASCII, if they are that. -/
def asciiText? (bs : List UInt8) : Option String :=
  if bs.all (· < 0x80) then some (String.ofList (bs.map fun b => Char.ofNat b.toNat)) else none

/-- The value as an integer: a number loses its fraction and a text is read. -/
def castInt : Value → Except CastError Int
  | int n => .ok n
  | bool b => .ok (if b then 1 else 0)
  | float x =>
    if x.isNaN then .error .invalid
    else if x.isInf then .error .tooLarge
    else .ok (integerPart x)
  | text s => (int? s).elim (.error .invalid) .ok
  | bytes bs => ((asciiText? bs).bind int?).elim (.error .invalid) .ok
  | _ => .error .wrongType

/-- The value as a double: a text is read. -/
def castFloat : Value → Except CastError Float
  | int n => (floatOfInt? n).elim (.error .tooLarge) .ok
  | bool b => .ok (if b then 1 else 0)
  | float x => .ok x
  | text s => (float? s).elim (.error .invalid) .ok
  | bytes bs => ((asciiText? bs).bind float?).elim (.error .invalid) .ok
  | _ => .error .wrongType

end Value

/-- Splits a text at a character. -/
def splitAt (sep : Char) : List Char → List (List Char)
  | [] => [[]]
  | c :: cs =>
    match splitAt sep cs with
    | [] => [[c]]
    | item :: items => if c == sep then [] :: item :: items else (c :: item) :: items

/-- The items of a text between commas, without the blanks around them; blank items do not
count. -/
def splitList (s : String) : List String :=
  (((splitAt ',' s.toList).map Text.trim).filter (!·.isEmpty)).map String.ofList

end SourceAtlas
