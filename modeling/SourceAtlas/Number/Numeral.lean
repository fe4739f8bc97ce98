import SourceAtlas.Number.Decimal
import SourceAtlas.Text.Class

/-!
# Numerals

Numbers written as text: digits of any script, single underscores between digits, blanks around.

Stands for the reading of numbers from texts, as `Config` and `ContextStore.upsert` have it done.
-/

namespace SourceAtlas.Number

open Text

/-! ## Common form -/

/-- The blanks of ASCII. -/
def isAsciiBlank (c : Char) : Bool := c == ' ' || (9 ≤ c.toNat && c.toNat ≤ 13)

/-- A character in its ASCII form: digits and blanks of all scripts have one. -/
def toAscii? (c : Char) : Option Char :=
  if c.toNat < 127 then some c
  else if isBlank c then some ' '
  else (digit? c).map fun d => Char.ofNat ('0'.toNat + d)

/-- Without the ASCII blanks at both ends. -/
def trimAscii (cs : List Char) : List Char :=
  ((cs.dropWhile isAsciiBlank).reverse.dropWhile isAsciiBlank).reverse

/-- Drops underscores, each of which must stand between two digits; `afterDigit` tells what came
before. -/
def dropUnderscores (afterDigit : Bool) : List Char → Option (List Char)
  | [] => some []
  | '_' :: rest =>
    match rest with
    | d :: _ => if afterDigit && d.isDigit then dropUnderscores false rest else none
    | [] => none
  | c :: rest => (dropUnderscores c.isDigit rest).map (c :: ·)

/-- The characters of a numeral in ASCII, without blanks and underscores. -/
def numeral? (s : String) : Option (List Char) := do
  let cs ← s.toList.mapM toAscii?
  dropUnderscores false (trimAscii cs)

/-- The value of a run of digits. -/
def natOfDigits (cs : List Char) : Nat := cs.foldl (fun n c => 10 * n + (c.toNat - '0'.toNat)) 0

/-- A sign and what follows it. -/
def splitSign : List Char → Bool × List Char
  | '-' :: cs => (true, cs)
  | '+' :: cs => (false, cs)
  | cs => (false, cs)

/-! ## Integers -/

/-- More digits than this are no integer numeral. -/
def maxDigits : Nat := 4300

/-- The integer that a text writes. -/
def int? (s : String) : Option Int := do
  let (negative, ds) := splitSign (← numeral? s)
  guard (!ds.isEmpty && ds.all Char.isDigit && ds.length ≤ maxDigits)
  return if negative then -(natOfDigits ds : Int) else natOfDigits ds

/-! ## Decimal numbers -/

/-- An exponent: a sign and digits, all that is left. -/
def exponent? (cs : List Char) : Option Int :=
  let (negative, ds) := splitSign cs
  if ds.isEmpty || !ds.all Char.isDigit then none
  else some (if negative then -(natOfDigits ds : Int) else natOfDigits ds)

/-- An unsigned decimal number that is all of a text. -/
def decimal? (negative : Bool) (cs : List Char) : Option Decimal := do
  let whole := cs.takeWhile Char.isDigit
  let rest := cs.dropWhile Char.isDigit
  let (fraction, rest) := match rest with
    | '.' :: rest => (rest.takeWhile Char.isDigit, rest.dropWhile Char.isDigit)
    | _ => ([], rest)
  guard (!(whole.isEmpty && fraction.isEmpty))
  let e ← match rest with
    | [] => some 0
    | c :: rest => if c == 'e' || c == 'E' then exponent? rest else none
  return ⟨negative, natOfDigits (whole ++ fraction), e - fraction.length⟩

/-- The double that a text writes: a decimal number, an infinity or a NaN. -/
def float? (s : String) : Option Float := do
  let (negative, cs) := splitSign (← numeral? s)
  let word := String.ofList (cs.map Char.toLower)
  if word == "inf" || word == "infinity" then
    return if negative then -infinity else infinity
  else if word == "nan" then return notANumber
  else return (← decimal? negative cs).toFloat

end SourceAtlas.Number
