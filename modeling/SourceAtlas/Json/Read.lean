import SourceAtlas.Number.Numeral
import SourceAtlas.Value.Basic

/-!
# Reading JSON

JSON texts as values. Integers are exact and may have any size up to the limit of numerals; `NaN`,
`Infinity` and `-Infinity` are numbers too. A text of a string may hold no control character.

Stands for the JSON reader of the standard library as `OllamaEmbedder.embed` uses it.
-/

namespace SourceAtlas.Json

open Number

/-- Why a text is not read. -/
inductive ReadError where
  | malformed
  | tooManyDigits
  | tooDeep
  deriving BEq, DecidableEq, Repr

abbrev Step (α : Type) := Except ReadError (α × List Char)

def isSpace (c : Char) : Bool := c == ' ' || c == '\t' || c == '\n' || c == '\r'

def skipSpace (cs : List Char) : List Char := cs.dropWhile isSpace

/-- What follows a word at the start of a text. -/
def afterWord? : List Char → List Char → Option (List Char)
  | [], cs => some cs
  | w :: ws, c :: cs => if w == c then afterWord? ws cs else none
  | _ :: _, [] => none

/-! ## Strings -/

def hexValue? (c : Char) : Option Nat :=
  if c.isDigit then some (c.toNat - '0'.toNat)
  else if 'a' ≤ c && c ≤ 'f' then some (c.toNat - 'a'.toNat + 10)
  else if 'A' ≤ c && c ≤ 'F' then some (c.toNat - 'A'.toNat + 10)
  else none

/-- The value of four hexadecimal digits. -/
def unit? : List Char → Option Nat
  | a :: b :: c :: d :: _ => do
    return ((← hexValue? a) * 16 + (← hexValue? b)) * 256 + (← hexValue? c) * 16 + (← hexValue? d)
  | _ => none

/-- The character that a letter behind a backslash stands for. -/
def escape? : Char → Option Char
  | '"' => some '"' | '\\' => some '\\' | '/' => some '/' | 'b' => some '\x08'
  | 'f' => some '\x0c' | 'n' => some '\n' | 'r' => some '\r' | 't' => some '\t'
  | _ => none

/-- A code point written as one unit, or as two when the second completes it. Answers what
follows. -/
def unicode? (cs : List Char) : Option (Char × List Char) := do
  let high ← unit? cs
  let rest := cs.drop 4
  if 0xD800 ≤ high && high < 0xDC00 then
    match rest with
    | '\\' :: 'u' :: more =>
      match unit? more with
      | some low =>
        if 0xDC00 ≤ low && low < 0xE000 then
          return (Char.ofNat (0x10000 + (high - 0xD800) * 0x400 + (low - 0xDC00)), more.drop 4)
        else return ('\uFFFD', rest)
      | none => return ('\uFFFD', rest)
    | _ => return ('\uFFFD', rest)
  else return (if high < 0xD800 || 0xE000 ≤ high then Char.ofNat high else '\uFFFD', rest)

/-- The rest of a string, its opening quote read; `out` holds its characters, last first. -/
def string? : Nat → List Char → List Char → Step String
  | 0, _, _ => .error .malformed
  | _, [], _ => .error .malformed
  | fuel + 1, c :: cs, out =>
    if c == '"' then .ok (String.ofList out.reverse, cs)
    else if c == '\\' then
      match cs with
      | 'u' :: more =>
        match unicode? more with
        | some (c, rest) => string? fuel rest (c :: out)
        | none => .error .malformed
      | e :: more =>
        match escape? e with
        | some c => string? fuel more (c :: out)
        | none => .error .malformed
      | [] => .error .malformed
    else if c.toNat < 0x20 then .error .malformed
    else string? fuel cs (c :: out)

/-! ## Numbers -/

/-- The digits at the start of a text, and what follows. -/
def digits (cs : List Char) : List Char × List Char :=
  (cs.takeWhile Char.isDigit, cs.dropWhile Char.isDigit)

/-- The fraction at the start of a text: a point and digits. -/
def fraction (cs : List Char) : Option (List Char) × List Char :=
  match cs with
  | '.' :: rest =>
    let (ds, rest) := digits rest
    if ds.isEmpty then (none, cs) else (some ds, rest)
  | _ => (none, cs)

/-- The exponent at the start of a text. -/
def exponent (cs : List Char) : Option Int × List Char :=
  match cs with
  | c :: rest =>
    if c == 'e' || c == 'E' then
      let (negative, rest) := splitSign rest
      let (ds, rest) := digits rest
      if ds.isEmpty then (none, cs)
      else (some (if negative then -(natOfDigits ds : Int) else natOfDigits ds), rest)
    else (none, cs)
  | [] => (none, cs)

/-- A number: no needless zero leads it, and it is an integer unless it has a fraction or an
exponent. -/
def number? (cs : List Char) : Step Value :=
  let (negative, body) := match cs with
    | '-' :: rest => (true, rest)
    | _ => (false, cs)
  match afterWord? "Infinity".toList body with
  | some rest => .ok (.float (if negative then -infinity else infinity), rest)
  | none =>
    let (whole, rest) := match body with
      | '0' :: rest => (['0'], rest)
      | _ => digits body
    if whole.isEmpty then .error .malformed
    else
      let (f, rest) := fraction rest
      let (e, rest) := exponent rest
      if f.isNone && e.isNone then
        if maxDigits < whole.length then .error .tooManyDigits
        else .ok (.int (if negative then -(natOfDigits whole : Int) else natOfDigits whole), rest)
      else
        let f := f.getD []
        .ok (.float (Decimal.toFloat
          ⟨negative, natOfDigits (whole ++ f), e.getD 0 - f.length⟩), rest)

/-! ## Values -/

mutual

/-- The value at the start of a text. -/
def value : Nat → Nat → List Char → Step Value
  | 0, _, _ => .error .malformed
  | fuel + 1, depth, cs =>
    match cs with
    | '"' :: rest => (string? (rest.length + 1) rest []).map fun (s, rest) => (.text s, rest)
    | '[' :: rest =>
      if depth == 0 then .error .tooDeep
      else match skipSpace rest with
        | ']' :: rest => .ok (.list [], rest)
        | rest => (items fuel (depth - 1) rest []).map fun (vs, rest) => (.list vs, rest)
    | '{' :: rest =>
      if depth == 0 then .error .tooDeep
      else match skipSpace rest with
        | '}' :: rest => .ok (.map [], rest)
        | rest => (members fuel (depth - 1) rest []).map fun (es, rest) => (.map es, rest)
    | _ =>
      match afterWord? "null".toList cs with
      | some rest => .ok (.null, rest)
      | none =>
      match afterWord? "true".toList cs with
      | some rest => .ok (.bool true, rest)
      | none =>
      match afterWord? "false".toList cs with
      | some rest => .ok (.bool false, rest)
      | none =>
      match afterWord? "NaN".toList cs with
      | some rest => .ok (.float notANumber, rest)
      | none => number? cs

/-- The values of a list up to its end. -/
def items : Nat → Nat → List Char → List Value → Step (List Value)
  | 0, _, _, _ => .error .malformed
  | fuel + 1, depth, cs, out =>
    match value fuel depth cs with
    | .error e => .error e
    | .ok (v, rest) =>
      match skipSpace rest with
      | ',' :: rest => items fuel depth (skipSpace rest) (v :: out)
      | ']' :: rest => .ok ((v :: out).reverse, rest)
      | _ => .error .malformed

/-- The members of an object up to its end. -/
def members : Nat → Nat → List Char → List (Value × Value) → Step (List (Value × Value))
  | 0, _, _, _ => .error .malformed
  | fuel + 1, depth, cs, out =>
    match cs with
    | '"' :: rest =>
      match string? (rest.length + 1) rest [] with
      | .error e => .error e
      | .ok (key, rest) =>
        match skipSpace rest with
        | ':' :: rest =>
          match value fuel depth (skipSpace rest) with
          | .error e => .error e
          | .ok (v, rest) =>
            match skipSpace rest with
            | ',' :: rest => members fuel depth (skipSpace rest) ((.text key, v) :: out)
            | '}' :: rest => .ok (((.text key, v) :: out).reverse, rest)
            | _ => .error .malformed
        | _ => .error .malformed
    | _ => .error .malformed

end

/-- The value of a JSON text in which lists and objects are nested no deeper than is given. Blanks
may stand around it. -/
def readWithin (depth : Nat) (s : String) : Except ReadError Value :=
  let cs := skipSpace s.toList
  match value (cs.length + 1) depth cs with
  | .error e => .error e
  | .ok (v, rest) => if (skipSpace rest).isEmpty then .ok v else .error .malformed

/-- The value of a JSON text, however deep it is nested. -/
def read (s : String) : Except ReadError Value := readWithin s.length s

end SourceAtlas.Json
