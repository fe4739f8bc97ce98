import SourceAtlas.Json.Read

/-!
# Places in a text

A place in a YAML text: what is still to be read, and the line and the column of the place. Behind
the end of the text stands the character with the number zero, which no text holds.
-/

namespace SourceAtlas.Yaml

/-- Why a text yields no value. A malformed text is refused as a whole; the others are failures of
a single scalar or of the depth of the text. -/
inductive YamlError where
  | malformed
  | badScalar
  | unknownTruth
  | notTimestamp
  | emptyNumeral
  | codeTooLarge
  | wrongShape
  | tooDeep
  deriving BEq, DecidableEq, Repr

/-! ## Characters -/

def isBreak (c : Char) : Bool :=
  c == '\n' || c == '\r' || c == '\x85' || c == '\u2028' || c == '\u2029'

def isEnd (c : Char) : Bool := c == '\x00'

def isBreakOrEnd (c : Char) : Bool := isBreak c || isEnd c

/-- What may follow an indicator: a blank, a line end or the end of the text. -/
def isGap (c : Char) : Bool := c == ' ' || c == '\t' || isBreakOrEnd c

/-- The letters of names. -/
def isNameChar (c : Char) : Bool := c.isAlphanum || c == '-' || c == '_'

/-- Whether a text may hold a character. -/
def isAllowed (c : Char) : Bool :=
  let n := c.toNat
  n == 9 || n == 0xA || n == 0xD || (0x20 ≤ n && n ≤ 0x7E) || n == 0x85 ||
    (0xA0 ≤ n && n ≤ 0xD7FF) || (0xE000 ≤ n && n ≤ 0xFFFD) || 0x10000 ≤ n

/-! ## Cursors -/

structure Cursor where
  rest : List Char
  index : Nat
  line : Nat
  column : Nat

namespace Cursor

def ofText (cs : List Char) : Cursor := ⟨cs, 0, 0, 0⟩

/-- The character `k` places ahead. -/
def peek (c : Cursor) (k : Nat) : Char := c.rest.getD k '\x00'

def here (c : Cursor) : Char := c.peek 0

/-- One character further. A mark of byte order takes no column. -/
def step (c : Cursor) : Cursor :=
  match c.rest with
  | [] => c
  | ch :: rest =>
    if isBreak ch && !(ch == '\r' && rest.head? == some '\n') then
      ⟨rest, c.index + 1, c.line + 1, 0⟩
    else ⟨rest, c.index + 1, c.line, if ch == '\uFEFF' then c.column else c.column + 1⟩

def forward : Nat → Cursor → Cursor
  | 0, c => c
  | n + 1, c => forward n c.step

/-- The characters from here on that pass a test, and the place behind them. -/
def span (p : Char → Bool) (c : Cursor) : List Char × Cursor :=
  let taken := c.rest.takeWhile p
  (taken, c.forward taken.length)

def skip (p : Char → Bool) (c : Cursor) : Cursor := (c.span p).2

def skipSpaces (c : Cursor) : Cursor := c.skip (· == ' ')

/-- The line end here as it is read, and the place behind it. There may be none. -/
def lineBreak (c : Cursor) : List Char × Cursor :=
  let ch := c.here
  if ch == '\r' && c.peek 1 == '\n' then (['\n'], c.forward 2)
  else if ch == '\r' || ch == '\n' || ch == '\x85' then (['\n'], c.step)
  else if isBreak ch then ([ch], c.step)
  else ([], c)

/-- Skips a comment that starts here. -/
def skipComment (c : Cursor) : Cursor :=
  if c.here == '#' then c.skip (!isBreak ·) else c

/-- The rest of a line on which nothing but a comment may stand. -/
def endLine (c : Cursor) : Except YamlError Cursor :=
  let c := c.skipSpaces.skipComment
  if isBreakOrEnd c.here then .ok c.lineBreak.2 else .error .malformed

/-- Whether a mark between documents starts here. -/
def atDocumentMark (c : Cursor) : Bool :=
  let three := c.rest.take 3
  (three == ['-', '-', '-'] || three == ['.', '.', '.']) && isGap (c.peek 3)

end Cursor

end SourceAtlas.Yaml
