import SourceAtlas.Yaml.Cursor

/-!
# Scalars as they are written

The texts of scalars: in quotes, as blocks of lines, and plain.
-/

namespace SourceAtlas.Yaml

/-! ## In quotes -/

/-- What a letter behind a backslash stands for. -/
def escape? : Char → Option Char
  | '0' => some '\x00' | 'a' => some '\x07' | 'b' => some '\x08' | 't' => some '\t'
  | '\t' => some '\t' | 'n' => some '\n' | 'v' => some '\x0b' | 'f' => some '\x0c'
  | 'r' => some '\r' | 'e' => some '\x1b' | ' ' => some ' ' | '"' => some '"'
  | '\\' => some '\\' | '/' => some '/' | 'N' => some '\x85' | '_' => some '\xa0'
  | 'L' => some '\u2028' | 'P' => some '\u2029'
  | _ => none

/-- How many hexadecimal digits follow a letter behind a backslash. -/
def escapeDigits? : Char → Option Nat
  | 'x' => some 2 | 'u' => some 4 | 'U' => some 8
  | _ => none

/-- The number that a list of hexadecimal digits writes. -/
def hexNumber? (ds : List Char) : Option Nat :=
  (ds.mapM Json.hexValue?).map fun vs => vs.foldl (fun n v => 16 * n + v) 0

/-- The character with a code. -/
def charOfCode (n : Nat) : Except YamlError Char :=
  if 0x7FFFFFFF < n then .error .codeTooLarge
  else if 0x10FFFF < n then .error .badScalar
  else .ok (if n.isValidChar then Char.ofNat n else '\uFFFD')

/-- Line ends and blanks between the lines of a scalar in quotes; no mark between documents may
come up. -/
def quotedBreaks : Nat → Cursor → List Char → Except YamlError (List Char × Cursor)
  | 0, _, _ => .error .malformed
  | fuel + 1, c, out =>
    if c.atDocumentMark then .error .malformed
    else
      let c := c.skip fun ch => ch == ' ' || ch == '\t'
      if isBreak c.here then
        let (b, c) := c.lineBreak
        quotedBreaks fuel c (out ++ b)
      else .ok (out, c)

/-- The blanks inside a scalar in quotes. A single line end reads as a blank. -/
def quotedSpaces (fuel : Nat) (c : Cursor) : Except YamlError (List Char × Cursor) := do
  let (blanks, c) := c.span fun ch => ch == ' ' || ch == '\t'
  if isEnd c.here then throw .malformed
  if isBreak c.here then
    let (b, c) := c.lineBreak
    let (more, c) ← quotedBreaks fuel c []
    return ((if b != ['\n'] then b else if more.isEmpty then [' '] else []) ++ more, c)
  return (blanks, c)

/-- An escape, its backslash read. -/
def readEscape (fuel : Nat) (c : Cursor) : Except YamlError (List Char × Cursor) := do
  match escape? c.here with
  | some ch => return ([ch], c.step)
  | none =>
    match escapeDigits? c.here with
    | some n =>
      let c := c.step
      let ds := c.rest.take n
      match if ds.length == n then hexNumber? ds else none with
      | some code => return ([← charOfCode code], c.forward n)
      | none => throw .malformed
    | none =>
      if isBreak c.here then quotedBreaks fuel c.lineBreak.2 [] else throw .malformed

/-- Whether a character means itself in quotes of either kind. -/
def isOrdinary (c : Char) : Bool := !(c == '\'' || c == '"' || c == '\\' || isGap c)

/-- The rest of a scalar in quotes, the first quote read. -/
def quotedRest (double : Bool) : Nat → Cursor → List Char → Except YamlError (List Char × Cursor)
  | 0, _, _ => .error .malformed
  | fuel + 1, c, out =>
    let quote := if double then '"' else '\''
    let ch := c.here
    if ch == quote then
      if !double && c.peek 1 == quote then quotedRest double fuel (c.forward 2) (out ++ [quote])
      else .ok (out, c.step)
    else if ch == ' ' || ch == '\t' || isBreakOrEnd ch then
      match quotedSpaces (fuel + 1) c with
      | .error e => .error e
      | .ok (more, c) => quotedRest double fuel c (out ++ more)
    else if double && ch == '\\' then
      match readEscape (fuel + 1) c.step with
      | .error e => .error e
      | .ok (more, c) => quotedRest double fuel c (out ++ more)
    else
      let (run, next) := c.span isOrdinary
      if run.isEmpty then quotedRest double fuel c.step (out ++ [ch])
      else quotedRest double fuel next (out ++ run)

/-- A scalar in quotes. -/
def quotedScalar (c : Cursor) : Except YamlError (List Char × Cursor) :=
  quotedRest (c.here == '"') (2 * c.rest.length + 2) c.step []

/-! ## Blocks of lines -/

/-- What becomes of the line ends behind a block: all are kept, one is, or none. -/
inductive Chomping where
  | keep
  | clip
  | strip
  deriving BEq, DecidableEq, Repr

def chomping? (c : Char) : Option Chomping :=
  if c == '+' then some .keep else if c == '-' then some .strip else none

/-- The digit of an indentation, which is not zero. -/
def indentDigit? (c : Char) : Except YamlError (Option Nat) :=
  if c.isDigit then
    if c == '0' then .error .malformed else .ok (some (c.toNat - '0'.toNat))
  else .ok none

/-- The signs behind the first character of a block, in any order. -/
def blockSigns (c : Cursor) : Except YamlError (Chomping × Option Nat × Cursor) := do
  match chomping? c.here with
  | some k =>
    let c := c.step
    match ← indentDigit? c.here with
    | some n => return (k, some n, c.step)
    | none => return (k, none, c)
  | none =>
    match ← indentDigit? c.here with
    | some n =>
      let c := c.step
      match chomping? c.here with
      | some k => return (k, some n, c.step)
      | none => return (.clip, some n, c)
    | none => return (.clip, none, c)

/-- Line ends and spaces before the first line of a block, and the farthest column they reach. -/
def blockIndentation : Nat → Cursor → List Char → Nat → List Char × Nat × Cursor
  | 0, c, out, most => (out, most, c)
  | fuel + 1, c, out, most =>
    if c.here == ' ' then
      let c := c.step
      blockIndentation fuel c out (max most c.column)
    else if isBreak c.here then
      let (b, c) := c.lineBreak
      blockIndentation fuel c (out ++ b) most
    else (out, most, c)

/-- Skips spaces up to a column. -/
def skipIndent (indent : Nat) (c : Cursor) : Cursor :=
  c.forward ((c.rest.takeWhile (· == ' ')).length.min (indent - c.column))

/-- Blank lines of a block. -/
def blockBreaks (indent : Nat) : Nat → Cursor → List Char → List Char × Cursor
  | 0, c, out => (out, c)
  | fuel + 1, c, out =>
    let c := skipIndent indent c
    if isBreak c.here then
      let (b, c) := c.lineBreak
      blockBreaks indent fuel c (out ++ b)
    else (out, c)

/-- The lines of a block. `breaks` are the line ends before this line. Answers the text up to the
last line, its line end, the line ends behind it, and the place. -/
def blockLines (folded : Bool) (indent : Nat) :
    Nat → Cursor → List Char → List Char → List Char × List Char × List Char × Cursor
  | 0, c, breaks, out => (out, [], breaks, c)
  | fuel + 1, c, breaks, out =>
    let isBlank (ch : Char) : Bool := ch == ' ' || ch == '\t'
    let flush := !isBlank c.here
    let (line, c) := c.span (!isBreak ·)
    let out := out ++ breaks ++ line
    let (b, c) := c.lineBreak
    let (more, c) := blockBreaks indent (fuel + 1) c []
    if c.column == indent && !isEnd c.here then
      let joint := if folded && b == ['\n'] && flush && !isBlank c.here then
        (if more.isEmpty then [' '] else []) else b
      blockLines folded indent fuel c more (out ++ joint)
    else (out, b, more, c)

/-- What stands below the head of a block, read as `blockLines` does: lines that are as deep as the
digit of the head says, or else as the first line is. -/
def blockBody (folded : Bool) (least : Nat) (digit : Option Nat) (c : Cursor) :
    List Char × List Char × List Char × Cursor :=
  let fuel := c.rest.length + 1
  let (indent, breaks, c) := match digit with
    | some n =>
      let indent := least + n - 1
      let (breaks, c) := blockBreaks indent fuel c []
      (indent, breaks, c)
    | none =>
      let (breaks, most, c) := blockIndentation fuel c [] 0
      (max least most, breaks, c)
  if c.column == indent && !isEnd c.here then blockLines folded indent fuel c breaks []
  else ([], [], breaks, c)

/-- A block of lines below an indentation. -/
def blockScalar (parent : Int) (c : Cursor) : Except YamlError (List Char × Cursor) := do
  let folded := c.here == '>'
  let (chomping, digit, c) ← blockSigns c.step
  if !(c.here == ' ' || isBreakOrEnd c.here) then throw .malformed
  let c ← c.endLine
  let (out, b, more, c) := blockBody folded (max 1 (parent + 1)).toNat digit c
  let tail := match chomping with
    | .strip => []
    | .clip => b
    | .keep => b ++ more
  return (out ++ tail, c)

/-! ## Plain -/

/-- Line ends and spaces between the lines of a plain scalar, unless a mark between documents comes
up. -/
def plainBreaks : Nat → Cursor → List Char → Option (List Char) × Cursor
  | 0, c, out => (some out, c)
  | fuel + 1, c, out =>
    if c.here == ' ' then plainBreaks fuel c.step out
    else if isBreak c.here then
      let (b, c) := c.lineBreak
      if c.atDocumentMark then (none, c) else plainBreaks fuel c (out ++ b)
    else (some out, c)

/-- The blanks behind a part of a plain scalar, none where the scalar ends, and whether they hold a
line end. -/
def plainSpaces (c : Cursor) : List Char × Bool × Cursor :=
  let (blanks, c) := c.span (· == ' ')
  if isBreak c.here then
    let (b, c) := c.lineBreak
    if c.atDocumentMark then ([], true, c)
    else
      match plainBreaks (c.rest.length + 1) c [] with
      | (none, c) => ([], true, c)
      | (some more, c) =>
        ((if b != ['\n'] then b else if more.isEmpty then [' '] else []) ++ more, true, c)
  else (blanks, false, c)

def isFlowMark (c : Char) : Bool := c == ',' || c == '[' || c == ']' || c == '{' || c == '}'

/-- Whether a plain scalar ends before its next character. -/
def endsPlain (inFlow : Bool) (here next : Char) : Bool :=
  isGap here || (here == ':' && (isGap next || (inFlow && isFlowMark next))) ||
    (inFlow && (isFlowMark here || here == '?'))

/-- The length of the part of a plain scalar at the start of a text. -/
def plainLength (inFlow : Bool) : List Char → Nat
  | [] => 0
  | ch :: rest =>
    if endsPlain inFlow ch (rest.headD '\x00') then 0 else plainLength inFlow rest + 1

/-- A plain scalar inside an indentation, and whether a line end stands behind it. -/
def plainRest (inFlow : Bool) (indent : Int) :
    Nat → Cursor → List Char → Bool → List Char × Bool × Cursor
  | 0, c, out, crossed => (out, crossed, c)
  | fuel + 1, c, out, crossed =>
    let n := if c.here == '#' then 0 else plainLength inFlow c.rest
    if n == 0 then (out, crossed, c)
    else
      let part := c.rest.take n
      let (spaces, crossed, next) := plainSpaces (c.forward n)
      if spaces.isEmpty || next.here == '#' || (!inFlow && (next.column : Int) < indent) then
        (out ++ part, crossed, next)
      else
        let m := plainLength inFlow next.rest
        if m == 0 then (out ++ part, crossed, next)
        else plainRest inFlow indent fuel next (out ++ part ++ spaces) crossed

def plainScalar (inFlow : Bool) (parent : Int) (c : Cursor) : List Char × Bool × Cursor :=
  plainRest inFlow (parent + 1) (c.rest.length + 1) c [] false

end SourceAtlas.Yaml
