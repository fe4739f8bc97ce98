import SourceAtlas.Number.Numeral
import SourceAtlas.Number.Shortest
import SourceAtlas.Text.Quoted
import SourceAtlas.Value.Basic

/-!
# The text of values

How a value reads as a text: a text as it is, anything else as it is shown inside a list, where
texts are quoted.

Stands for the texts of values in settings and in the messages of faults.
-/

namespace SourceAtlas

open Number Text

/-- A number with at least `width` digits. -/
def padded (width n : Nat) : String :=
  let ds := Nat.toDigits 10 n
  String.ofList (List.replicate (width - ds.length) '0' ++ ds)

/-! ## Days and moments -/

namespace Date

/-- Year, month and day with dashes. -/
def text (d : Date) : String := padded 4 d.year ++ "-" ++ padded 2 d.month ++ "-" ++ padded 2 d.day

/-- The numbers of a day, separated by commas. -/
def numbers (d : Date) : String := s!"{d.year}, {d.month}, {d.day}"

end Date

namespace Moment

def hour (m : Moment) : Nat := m.micros / 3600000000

def minute (m : Moment) : Nat := m.micros / 60000000 % 60

def second (m : Moment) : Nat := m.micros / 1000000 % 60

def fraction (m : Moment) : Nat := m.micros % 1000000

/-- An offset as hours and minutes with its sign. -/
def offsetText (minutes : Int) : String :=
  (if minutes < 0 then "-" else "+") ++ padded 2 (minutes.natAbs / 60) ++ ":" ++
    padded 2 (minutes.natAbs % 60)

def text (m : Moment) : String :=
  m.date.text ++ " " ++ padded 2 m.hour ++ ":" ++ padded 2 m.minute ++ ":" ++ padded 2 m.second ++
    (if m.fraction == 0 then "" else "." ++ padded 6 m.fraction) ++
    ((m.offset.map offsetText).getD "")

/-- An offset as a number of days and seconds. -/
def offsetShown (minutes : Int) : String :=
  if minutes == 0 then "datetime.timezone.utc"
  else
    let days := minutes.fdiv 1440
    let seconds := minutes.fmod 1440 * 60
    let parts := (if days == 0 then [] else [s!"days={days}"]) ++
      (if seconds == 0 then [] else [s!"seconds={seconds}"])
    "datetime.timezone(datetime.timedelta(" ++ ", ".intercalate parts ++ "))"

def shown (m : Moment) : String :=
  let small := if m.fraction != 0 then s!", {m.second}, {m.fraction}"
    else if m.second != 0 then s!", {m.second}" else ""
  "datetime.datetime(" ++ m.date.numbers ++ s!", {m.hour}, {m.minute}" ++ small ++
    ((m.offset.map fun o => ", tzinfo=" ++ offsetShown o).getD "") ++ ")"

end Moment

/-! ## Values -/

namespace Value

/-- Bytes in quotes; what is not printable ASCII is written by its number. -/
def quotedBytes (bs : List UInt8) : String :=
  let cs := bs.map fun b => Char.ofNat b.toNat
  let quote := quoteFor cs
  let one (c : Char) : List Char :=
    if c.toNat < 0x7F then quoteChar quote c else '\\' :: 'x' :: hex 2 c.toNat
  String.ofList ('b' :: quote :: cs.flatMap one ++ [quote])

mutual

/-- How a value is shown inside another. -/
def shown : Value → String
  | null => "None"
  | bool b => if b then "True" else "False"
  | int n => toString n
  | float x => floatText x
  | text s => quoted s
  | bytes bs => quotedBytes bs
  | date d => "datetime.date(" ++ d.numbers ++ ")"
  | moment m => m.shown
  | list vs => "[" ++ ", ".intercalate (shownAll vs) ++ "]"
  | pair a b => "(" ++ shown a ++ ", " ++ shown b ++ ")"
  | map es => "\x7b" ++ ", ".intercalate (shownEntries es) ++ "\x7d"
  | set vs => if vs.isEmpty then "set()" else "\x7b" ++ ", ".intercalate (shownAll vs) ++ "\x7d"

def shownAll : List Value → List String
  | [] => []
  | v :: vs => shown v :: shownAll vs

def shownEntries : List (Value × Value) → List String
  | [] => []
  | (k, v) :: es => (shown k ++ ": " ++ shown v) :: shownEntries es

end

/-- An integer with more digits than a numeral may have. -/
def isWide (n : Int) : Bool := Nat.pow 10 maxDigits ≤ n.natAbs

mutual

/-- Whether a value holds an integer that cannot be written. -/
def holdsWide : Value → Bool
  | int n => isWide n
  | list vs => anyWide vs
  | pair a b => holdsWide a || holdsWide b
  | map es => anyWideEntry es
  | set vs => anyWide vs
  | _ => false

def anyWide : List Value → Bool
  | [] => false
  | v :: vs => holdsWide v || anyWide vs

def anyWideEntry : List (Value × Value) → Bool
  | [] => false
  | (k, v) :: es => holdsWide k || holdsWide v || anyWideEntry es

end

/-- The text of a value. -/
def toText : Value → String
  | text s => s
  | date d => d.text
  | moment m => m.text
  | v => shown v

end Value

end SourceAtlas
