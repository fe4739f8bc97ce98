import SourceAtlas.Number.Shortest
import SourceAtlas.Text.Quoted
import SourceAtlas.Value.Basic

/-!
# Writing JSON

Values as JSON texts in ASCII: other characters are written as one or two units of four hexadecimal
digits. What JSON has no form for is written as null.

Stands for the JSON writer of the standard library as `_cmd_index` and `_cmd_search` use it.
-/

namespace SourceAtlas.Json

open Number Text

/-- A unit of four hexadecimal digits. -/
def unit (n : Nat) : List Char := '\\' :: 'u' :: hex 4 n

def escapeChar (c : Char) : List Char :=
  let n := c.toNat
  if c == '"' || c == '\\' then ['\\', c]
  else if c == '\n' then ['\\', 'n']
  else if c == '\r' then ['\\', 'r']
  else if c == '\t' then ['\\', 't']
  else if n == 8 then ['\\', 'b']
  else if n == 12 then ['\\', 'f']
  else if 0x20 ≤ n && n < 0x7F then [c]
  else if n < 0x10000 then unit n
  else unit (0xD800 + (n - 0x10000) / 0x400) ++ unit (0xDC00 + (n - 0x10000) % 0x400)

def quote (s : String) : String := String.ofList ('"' :: s.toList.flatMap escapeChar ++ ['"'])

def number (x : Float) : String :=
  if x.isNaN then "NaN" else if x.isInf then (if isNegative x then "-Infinity" else "Infinity")
  else floatText x

/-- What separates the parts of a list or an object: a blank, or a line end and blanks. -/
def separator (indent : Option Nat) (depth : Nat) : String :=
  match indent with
  | none => " "
  | some n => "\n" ++ String.ofList (List.replicate (n * depth) ' ')

/-- Parts between brackets. -/
def enclosed (indent : Option Nat) (depth : Nat) (left right : String) (parts : List String) :
    String :=
  if parts.isEmpty then left ++ right
  else
    let edge (d : Nat) := if indent.isNone then "" else separator indent d
    left ++ edge (depth + 1) ++ ("," ++ separator indent (depth + 1)).intercalate parts ++
      edge depth ++ right

mutual

/-- A value at a depth of the text. -/
def writeAt (indent : Option Nat) (depth : Nat) : Value → String
  | .null => "null"
  | .bool b => if b then "true" else "false"
  | .int n => toString n
  | .float x => number x
  | .text s => quote s
  | .list vs => enclosed indent depth "[" "]" (writeItems indent (depth + 1) vs)
  | .map es => enclosed indent depth "\x7b" "\x7d" (writeMembers indent (depth + 1) es)
  | .bytes _ | .date _ | .moment _ | .pair _ _ | .set _ => "null"

def writeItems (indent : Option Nat) (depth : Nat) : List Value → List String
  | [] => []
  | v :: vs => writeAt indent depth v :: writeItems indent depth vs

def writeMembers (indent : Option Nat) (depth : Nat) : List (Value × Value) → List String
  | [] => []
  | (k, v) :: es =>
    (writeAt indent depth k ++ ": " ++ writeAt indent depth v) :: writeMembers indent depth es

end

/-- A value on one line. -/
def write (v : Value) : String := writeAt none 0 v

/-- A value on many lines, each depth indented by two blanks. -/
def writeIndented (v : Value) : String := writeAt (some 2) 0 v

end SourceAtlas.Json
