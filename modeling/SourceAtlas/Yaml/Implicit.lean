import SourceAtlas.Settings.Cast
import SourceAtlas.Text.Lower
import SourceAtlas.Yaml.Cursor

/-!
# Tags of scalars

What a plain scalar is, told by its form, and the value that a scalar has under a tag.
-/

namespace SourceAtlas.Yaml

open Number

/-! ## Tags -/

namespace Tag

/-- The tag of the standard with a name. -/
def ofName (name : String) : String := "tag:yaml.org,2002:" ++ name

def null := ofName "null"
def bool := ofName "bool"
def int := ofName "int"
def float := ofName "float"
def binary := ofName "binary"
def timestamp := ofName "timestamp"
def text := ofName "str"
def list := ofName "seq"
def map := ofName "map"
def set := ofName "set"
def pairs := ofName "pairs"
def orderedMap := ofName "omap"
def merge := ofName "merge"
def default := ofName "value"

end Tag

/-! ## Forms -/

def isDigits (cs : List Char) : Bool := !cs.isEmpty && cs.all Char.isDigit

def isDigitOrBar (c : Char) : Bool := c.isDigit || c == '_'

def dropSign : List Char → List Char
  | '-' :: cs | '+' :: cs => cs
  | cs => cs

/-- Parts of a number in base sixty, each with its colon. -/
def isSixties : List Char → Bool
  | [':', a] => a.isDigit
  | [':', a, b] => a.isDigit && a < '6' && b.isDigit
  | ':' :: a :: ':' :: rest => a.isDigit && isSixties (':' :: rest)
  | ':' :: a :: b :: ':' :: rest =>
    a.isDigit && a < '6' && b.isDigit && isSixties (':' :: rest)
  | _ => false

/-- An integer: in base ten, with a mark in base two, eight or sixteen, or in base sixty. -/
def isIntForm (cs : List Char) : Bool :=
  match dropSign cs with
  | ['0'] => true
  | '0' :: 'b' :: rest => !rest.isEmpty && rest.all fun c => c == '0' || c == '1' || c == '_'
  | '0' :: 'x' :: rest =>
    !rest.isEmpty && rest.all fun c => (Json.hexValue? c).isSome || c == '_'
  | '0' :: rest => rest.all fun c => (c.isDigit && c < '8') || c == '_'
  | c :: rest =>
    c.isDigit && (let tail := rest.dropWhile isDigitOrBar
                  tail.isEmpty || isSixties tail)
  | [] => false

/-- Nothing, or the exponent of a number, whose sign is written. -/
def isExponent : List Char → Bool
  | [] => true
  | e :: sign :: ds => (e == 'e' || e == 'E') && (sign == '-' || sign == '+') && isDigits ds
  | _ => false

/-- A number with a point, infinity or what is no number. -/
def isFloatForm (cs : List Char) : Bool :=
  let afterPoint (rest : List Char) : Bool := isExponent (rest.dropWhile isDigitOrBar)
  let word (cs : List Char) (names : List String) : Bool := names.any fun n => n.toList == cs
  let body := dropSign cs
  let signed := match body with
    | c :: rest =>
      c.isDigit &&
        (let tail := rest.dropWhile isDigitOrBar
         match tail with
         | '.' :: rest => afterPoint rest
         | ':' :: _ =>
           let sixties := tail.takeWhile (· != '.')
           let rest := tail.dropWhile (· != '.')
           isSixties sixties && !rest.isEmpty && (rest.drop 1).all isDigitOrBar
         | _ => false)
    | [] => false
  let point := match cs with
    | '.' :: c :: rest => c.isDigit && afterPoint rest
    | _ => false
  signed || point || word body [".inf", ".Inf", ".INF"] || word cs [".nan", ".NaN", ".NAN"]

/-! ## Moments -/

/-- The parts of a moment as they are written. -/
structure Stamp where
  year : Nat
  month : Nat
  day : Nat
  paddedDate : Bool
  time : Option (Nat × Nat × Nat × List Char)
  zone : Option Int
  deriving DecidableEq, Repr

/-- The number of one or two digits at the start of a text, how many they are, and what follows. -/
def shortNumber? (cs : List Char) : Option (Nat × Nat × List Char) :=
  let ds := (cs.take 2).takeWhile Char.isDigit
  if ds.isEmpty then none else some (natOfDigits ds, ds.length, cs.drop ds.length)

/-- The number of exactly `n` digits at the start of a text, and what follows. -/
def fixedNumber? (n : Nat) (cs : List Char) : Option (Nat × List Char) :=
  let ds := cs.take n
  if ds.length == n && ds.all Char.isDigit then some (natOfDigits ds, cs.drop n) else none

def afterChar? (c : Char) : List Char → Option (List Char)
  | x :: rest => if x == c then some rest else none
  | [] => none

/-- An offset from universal time in minutes; it is all of a text. -/
def zone? (cs : List Char) : Option (Option Int) := do
  match cs.dropWhile fun c => c == ' ' || c == '\t' with
  | [] => if cs.isEmpty then some none else none
  | ['Z'] => some (some 0)
  | sign :: rest =>
    guard (sign == '-' || sign == '+')
    let (hours, _, rest) ← shortNumber? rest
    let minutes ← match rest with
      | [] => some 0
      | ':' :: rest => do
        let (m, rest) ← fixedNumber? 2 rest
        guard rest.isEmpty
        some m
      | _ => none
    let total : Int := hours * 60 + minutes
    return some (if sign == '-' then -total else total)

/-- Reads a day, with a time of that day or without. -/
def stamp? (cs : List Char) : Option Stamp := do
  let (year, rest) ← fixedNumber? 4 cs
  let (month, monthDigits, rest) ← shortNumber? (← afterChar? '-' rest)
  let (day, dayDigits, rest) ← shortNumber? (← afterChar? '-' rest)
  let paddedDate := monthDigits == 2 && dayDigits == 2
  match rest with
  | [] => return ⟨year, month, day, paddedDate, none, none⟩
  | c :: more =>
    let rest ←
      if c == 'T' || c == 't' then some more
      else if c == ' ' || c == '\t' then some (more.dropWhile fun c => c == ' ' || c == '\t')
      else none
    let (hour, _, rest) ← shortNumber? rest
    let (minute, rest) ← fixedNumber? 2 (← afterChar? ':' rest)
    let (second, rest) ← fixedNumber? 2 (← afterChar? ':' rest)
    let (fraction, rest) := match rest with
      | '.' :: rest => (rest.takeWhile Char.isDigit, rest.dropWhile Char.isDigit)
      | _ => ([], rest)
    return ⟨year, month, day, paddedDate, some (hour, minute, second, fraction), ← zone? rest⟩

def isLeapYear (y : Nat) : Bool := y % 4 == 0 && (y % 100 != 0 || y % 400 == 0)

def daysInMonth (y m : Nat) : Nat :=
  if m == 2 then (if isLeapYear y then 29 else 28)
  else if m == 4 || m == 6 || m == 9 || m == 11 then 30 else 31

/-- The day or the moment that a stamp names, if the calendar has it. -/
def Stamp.value? (s : Stamp) : Option Value := do
  guard (1 ≤ s.year && 1 ≤ s.month && s.month ≤ 12)
  guard (1 ≤ s.day && s.day ≤ daysInMonth s.year s.month)
  let date : Date := ⟨s.year, s.month, s.day⟩
  match s.time with
  | none => return .date date
  | some (hour, minute, second, fraction) =>
    guard (hour < 24 && minute < 60 && second < 60)
    guard (s.zone.all fun z => z.natAbs < 1440)
    let micros := natOfDigits ((fraction ++ List.replicate 6 '0').take 6)
    return .moment ⟨date, ((hour * 60 + minute) * 60 + second) * 1000000 + micros, s.zone⟩

/-! ## Plain scalars -/

def trueWords : List String := ["yes", "Yes", "YES", "true", "True", "TRUE", "on", "On", "ON"]

def falseWords : List String := ["no", "No", "NO", "false", "False", "FALSE", "off", "Off", "OFF"]

def nullWords : List String := ["", "~", "null", "Null", "NULL"]

/-- The part of a text that tells its form: one line feed behind it does not count. -/
def formed (cs : List Char) : List Char :=
  match cs.reverse with
  | '\n' :: c :: rest => (c :: rest).reverse
  | _ => cs

/-- The tag of a plain scalar. -/
def implicitTag (cs : List Char) : String :=
  let cs := formed cs
  let word := String.ofList cs
  if trueWords.contains word || falseWords.contains word then Tag.bool
  else if nullWords.contains word then Tag.null
  else if word == "<<" then Tag.merge
  else if word == "=" then Tag.default
  else if isFloatForm cs then Tag.float
  else if isIntForm cs then Tag.int
  else if (stamp? cs).any fun s => s.paddedDate || s.time.isSome then Tag.timestamp
  else Tag.text

/-! ## Values -/

/-- The letter that marks a base. -/
def baseMark (base : Nat) : Char := if base == 2 then 'b' else if base == 8 then 'o' else 'x'

/-- The digits of a number, without the mark of its base. -/
def dropBaseMark (base : Nat) : List Char → List Char
  | '0' :: c :: rest => if c.toLower == baseMark base then rest else '0' :: c :: rest
  | cs => cs

/-- The integer that a text writes in base two, eight or sixteen. -/
def intInBase? (base : Nat) (cs : List Char) : Option Int := do
  let (negative, rest) := splitSign (← numeral? (String.ofList cs))
  let ds ← (dropBaseMark base rest).mapM Json.hexValue?
  guard (!ds.isEmpty && ds.all (· < base))
  let n := ds.foldl (fun n d => base * n + d) 0
  return if negative then -(n : Int) else n

/-- Sixty to each place: the last number counts once, the one before it sixty times. -/
def sixties {α : Type} [Add α] [Mul α] (sixty : Nat → α) (zero : α) (parts : List α) : α :=
  (parts.reverse.zipIdx).foldl (fun sum p => sum + p.1 * sixty p.2) zero

def intValue (cs : List Char) : Except YamlError Value := do
  let cs := cs.filter (· != '_')
  if cs.isEmpty then throw .emptyNumeral
  let (negative, body) := splitSign cs
  let whole (s : List Char) : Option Int := int? (String.ofList s)
  let n : Option Int ← match body with
    | [] => throw .emptyNumeral
    | ['0'] => pure (some 0)
    | '0' :: 'b' :: rest => pure (intInBase? 2 rest)
    | '0' :: 'x' :: rest => pure (intInBase? 16 rest)
    | '0' :: _ => pure (intInBase? 8 body)
    | _ =>
      pure <| if body.contains ':' then
        ((splitAt ':' body).mapM whole).map (sixties (fun k => (Nat.pow 60 k : Int)) 0)
      else whole body
  match n with
  | some n => return .int (if negative then -n else n)
  | none => throw .badScalar

def floatValue (cs : List Char) : Except YamlError Value := do
  let cs := (Text.lower (String.ofList (cs.filter (· != '_')))).toList
  if cs.isEmpty then throw .emptyNumeral
  let (negative, body) := splitSign cs
  let sign : Float := if negative then -1 else 1
  if body == ".inf".toList then return .float (sign * infinity)
  if body == ".nan".toList then return .float notANumber
  let number (s : List Char) : Option Float := float? (String.ofList s)
  let x ← if body.contains ':' then
      match (splitAt ':' body).mapM number with
      | some parts =>
        match (List.range parts.length).mapM fun k => floatOfInt? (Nat.pow 60 k : Int) with
        | some powers => pure (some (sixties (fun k => powers.getD k 0) 0 parts))
        | none => throw .codeTooLarge
      | none => pure none
    else pure (number body)
  match x with
  | some x => return .float (sign * x)
  | none => throw .badScalar

def boolValue (cs : List Char) : Except YamlError Value :=
  let word := Text.lower (String.ofList cs)
  if trueWords.contains word then .ok (.bool true)
  else if falseWords.contains word then .ok (.bool false)
  else .error .unknownTruth

def timestampValue (cs : List Char) : Except YamlError Value :=
  match stamp? (formed cs) with
  | none => .error .notTimestamp
  | some s => s.value?.elim (.error .badScalar) .ok

/-! ### Bytes -/

/-- The six bits of a character. -/
def sixBits? (c : Char) : Option Nat :=
  if c.isUpper then some (c.toNat - 'A'.toNat)
  else if c.isLower then some (c.toNat - 'a'.toNat + 26)
  else if c.isDigit then some (c.toNat - '0'.toNat + 52)
  else if c == '+' then some 62
  else if c == '/' then some 63
  else none

/-- Bytes written with six bits to a character; other characters do not count. `left` holds the
bits of the characters so far that make no whole byte, `place` tells how many characters they come
from, and `pads` how many equal signs stand behind them. -/
def bytesOf? : List Char → Nat → Nat → Nat → Option (List UInt8)
  | [], place, _, _ => if place == 0 then some [] else none
  | '=' :: cs, place, left, pads =>
    if 2 ≤ place then
      if 4 ≤ place + pads + 1 then some [] else bytesOf? cs place left (pads + 1)
    else bytesOf? cs place left pads
  | c :: cs, place, left, pads =>
    match sixBits? c with
    | none => bytesOf? cs place left pads
    | some v =>
      let byte (n : Nat) : UInt8 := UInt8.ofNat n
      if place == 0 then bytesOf? cs 1 v 0
      else if place == 1 then (bytesOf? cs 2 (v % 16) 0).map (byte (left * 4 + v / 16) :: ·)
      else if place == 2 then (bytesOf? cs 3 (v % 4) 0).map (byte (left * 16 + v / 4) :: ·)
      else (bytesOf? cs 0 0 0).map (byte (left * 64 + v) :: ·)

def binaryValue (cs : List Char) : Except YamlError Value :=
  if cs.any (0x80 ≤ ·.toNat) then .error .malformed
  else (bytesOf? cs 0 0 0).elim (.error .malformed) fun bs => .ok (.bytes bs)

end SourceAtlas.Yaml
