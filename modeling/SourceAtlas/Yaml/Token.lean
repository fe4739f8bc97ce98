import SourceAtlas.Yaml.Scalar
import SourceAtlas.Text.Utf8

/-!
# Tokens

The tokens of a YAML text. Indentation opens and closes blocks, and a scalar turns out to be a key
only when the colon behind it is read: the tokens that announce it are put in front of it then.
-/

namespace SourceAtlas.Yaml

/-- A token. `failure` ends the tokens of a text that cannot be read further. -/
inductive Token where
  | version (major : Nat)
  | handle (name start : List Char)
  | directive
  | documentStart
  | documentEnd
  | blockSequence
  | blockMapping
  | blockEnd
  | flowSequence
  | flowSequenceEnd
  | flowMapping
  | flowMappingEnd
  | blockEntry
  | flowEntry
  | key
  | value
  | reference (name : List Char)
  | anchor (name : List Char)
  | tag (handle : Option (List Char)) (suffix : List Char)
  | scalar (text : List Char) (plain : Bool)
  | streamEnd
  | failure (e : YamlError)
  deriving DecidableEq, Repr

/-! ## Names and tags -/

/-- The name of an anchor, its mark read. -/
def anchorName (c : Cursor) : Except YamlError (List Char × Cursor) :=
  let (name, c) := c.span isNameChar
  let next := c.here
  if name.isEmpty then .error .malformed
  else if isGap next || "?:,]\x7d%@\x60".toList.contains next then .ok (name, c)
  else .error .malformed

def isUriChar (c : Char) : Bool := c.isAlphanum || "-;/?:@&=+$,_.!~*'()[]".toList.contains c

/-- Bytes written as percent signs with two hexadecimal digits each. -/
def uriBytes : Nat → List Char → Option (List UInt8 × Nat)
  | 0, _ => none
  | fuel + 1, '%' :: rest =>
    match rest with
    | a :: b :: rest => do
      let (more, n) ← uriBytes fuel rest
      return (UInt8.ofNat (16 * (← Json.hexValue? a) + (← Json.hexValue? b)) :: more, n + 3)
    | _ => none
  | _ + 1, _ => some ([], 0)

/-- The text of an address; it is not empty. -/
def uriText : Nat → Cursor → List Char → Except YamlError (List Char × Cursor)
  | 0, _, _ => .error .malformed
  | fuel + 1, c, out =>
    let (run, c) := c.span isUriChar
    let out := out ++ run
    if c.here == '%' then
      match uriBytes (c.rest.length + 1) c.rest with
      | some (bytes, n) =>
        if Text.Utf8.isValid bytes then uriText fuel (c.forward n) (out ++ Text.Utf8.decode bytes)
        else .error .malformed
      | none => .error .malformed
    else if out.isEmpty then .error .malformed
    else .ok (out, c)

def readUri (c : Cursor) : Except YamlError (List Char × Cursor) := uriText (c.rest.length + 1) c []

/-- The handle of a tag: one exclamation mark, or a name between two. -/
def tagHandle (c : Cursor) : Except YamlError (List Char × Cursor) :=
  if c.here != '!' then .error .malformed
  else if c.peek 1 == ' ' then .ok (['!'], c.step)
  else
    let (name, next) := c.step.span isNameChar
    if next.here == '!' then .ok ('!' :: name ++ ['!'], next.step) else .error .malformed

/-- Whether a handle with a name starts here: a second exclamation mark comes before a blank. -/
def hasHandle (cs : List Char) : Bool :=
  let word := cs.takeWhile fun ch => !(ch == ' ' || isBreakOrEnd ch)
  (word.drop 1).contains '!'

/-- A tag. -/
def readTag (c : Cursor) : Except YamlError (Token × Cursor) := do
  let next := c.peek 1
  let (tag, c) ←
    if next == '<' then do
      let (suffix, c) ← readUri (c.forward 2)
      if c.here != '>' then throw .malformed
      pure (Token.tag none suffix, c.step)
    else if isGap next then pure (Token.tag none ['!'], c.step)
    else if hasHandle c.rest then do
      let (handle, c) ← tagHandle c
      let (suffix, c) ← readUri c
      pure (Token.tag (some handle) suffix, c)
    else do
      let (suffix, c) ← readUri c.step
      pure (Token.tag (some ['!']) suffix, c)
  if c.here == ' ' || isBreakOrEnd c.here then return (tag, c) else throw .malformed

/-! ## Directives -/

/-- A number of a version. -/
def versionNumber (c : Cursor) : Except YamlError (Nat × Cursor) :=
  let (ds, c) := c.span Char.isDigit
  if ds.isEmpty then .error .malformed
  else if Number.maxDigits < ds.length then .error .badScalar
  else .ok (Number.natOfDigits ds, c)

/-- A directive, with the rest of its line. -/
def readDirective (c : Cursor) : Except YamlError (Token × Cursor) := do
  let (name, c) := c.step.span isNameChar
  let endsWord (c : Cursor) : Bool := c.here == ' ' || isBreakOrEnd c.here
  if name.isEmpty || !endsWord c then throw .malformed
  if name == "YAML".toList then
    let (major, c) ← versionNumber c.skipSpaces
    if c.here != '.' then throw .malformed
    let (_, c) ← versionNumber c.step
    if !endsWord c then throw .malformed
    return (.version major, ← c.endLine)
  if name == "TAG".toList then
    let (handle, c) ← tagHandle c.skipSpaces
    if c.here != ' ' then throw .malformed
    let (start, c) ← readUri c.skipSpaces
    if !endsWord c then throw .malformed
    return (.handle handle start, ← c.endLine)
  return (.directive, ← (c.skip (!isBreak ·)).endLine)

/-! ## The scanner -/

/-- What may turn out to be a key: the number of its first token, its place, and whether nothing
else can stand there. -/
structure PossibleKey where
  token : Nat
  required : Bool
  index : Nat
  line : Nat
  column : Nat

/-- A scanner at a place: the tokens so far, the open brackets, the columns of the open blocks,
innermost first, and what may turn out to be a key for each number of open brackets. -/
structure Scanner where
  cursor : Cursor
  tokens : Array Token
  flow : Nat
  indent : Int
  indents : List Int
  allowKey : Bool
  keys : List (Nat × PossibleKey)

namespace Scanner

abbrev Step := Except YamlError Scanner

def ofText (cs : List Char) : Scanner := ⟨.ofText cs, #[], 0, -1, [], true, []⟩

def push (s : Scanner) (t : Token) : Scanner := { s with tokens := s.tokens.push t }

def moveTo (s : Scanner) (c : Cursor) : Scanner := { s with cursor := c }

/-- Closes the blocks that lie deeper than a column. -/
def unwind (s : Scanner) (column : Int) : Scanner :=
  if s.flow != 0 then s else go s s.indents
where
  go (s : Scanner) : List Int → Scanner
    | [] => s
    | outer :: rest =>
      if column < s.indent then
        go { s with indent := outer, indents := rest, tokens := s.tokens.push .blockEnd } rest
      else s

/-- Opens a block at a column, if it lies deeper than those that are open. -/
def deepen? (s : Scanner) (column : Nat) : Option Scanner :=
  if s.indent < column then
    some { s with indent := column, indents := s.indent :: s.indents }
  else none

/-- Gives up what may have been a key among the open brackets here. -/
def dropKey (s : Scanner) : Step :=
  match s.keys.lookup s.flow with
  | some key =>
    if key.required then .error .malformed
    else .ok { s with keys := s.keys.filter (·.1 != s.flow) }
  | none => .ok s

/-- Notes that a key may start here. -/
def noteKey (s : Scanner) : Step :=
  if s.allowKey then do
    let s ← s.dropKey
    let c := s.cursor
    let required := s.flow == 0 && s.indent == c.column
    let key := PossibleKey.mk s.tokens.size required c.index c.line c.column
    return { s with keys := (s.flow, key) :: s.keys }
  else .ok s

/-- No key is longer than this. -/
def maxKeyLength : Nat := 1024

/-- Gives up possible keys that a key cannot reach any more: it stays on its line. -/
def dropStale (s : Scanner) : Step :=
  let stale (e : Nat × PossibleKey) : Bool :=
    e.2.line != s.cursor.line || maxKeyLength < s.cursor.index - e.2.index
  if s.keys.any fun e => stale e && e.2.required then .error .malformed
  else .ok { s with keys := s.keys.filter fun e => !stale e }

/-- Skips blanks, comments and line ends. -/
def skipBlanks (s : Scanner) : Scanner :=
  let c := s.cursor
  let c := if c.index == 0 && c.here == '\uFEFF' then c.step else c
  go (c.rest.length + 1) { s with cursor := c }
where
  go : Nat → Scanner → Scanner
    | 0, s => s
    | fuel + 1, s =>
      let c := s.cursor.skipSpaces.skipComment
      if isBreak c.here then
        go fuel { s with cursor := c.lineBreak.2, allowKey := s.allowKey || s.flow == 0 }
      else s.moveTo c

/-! ### Marks -/

/-- Closes all blocks, in front of a mark of a document or a directive. -/
def closing (s : Scanner) : Step := do
  let s ← (s.unwind (-1)).dropKey
  return { s with allowKey := false }

def documentMark (s : Scanner) (t : Token) : Step := do
  let s ← s.closing
  return (s.moveTo (s.cursor.forward 3)).push t

def flowStart (s : Scanner) (t : Token) : Step := do
  let s ← s.noteKey
  return ({ s with flow := s.flow + 1, allowKey := true }.moveTo s.cursor.step).push t

def flowEnd (s : Scanner) (t : Token) : Step := do
  let s ← s.dropKey
  return ({ s with flow := s.flow - 1, allowKey := false }.moveTo s.cursor.step).push t

def flowEntry (s : Scanner) : Step := do
  let s ← s.dropKey
  return ({ s with allowKey := true }.moveTo s.cursor.step).push .flowEntry

/-- Opens a block here where brackets are closed; a block may only start where a key may. -/
def openBlock (s : Scanner) (t : Token) : Step :=
  if s.flow != 0 then .ok s
  else if !s.allowKey then .error .malformed
  else .ok (((s.deepen? s.cursor.column).map (·.push t)).getD s)

def blockEntry (s : Scanner) : Step := do
  let s ← s.openBlock .blockSequence
  let s ← { s with allowKey := true }.dropKey
  return (s.moveTo s.cursor.step).push .blockEntry

def keyMark (s : Scanner) : Step := do
  let s ← s.openBlock .blockMapping
  let s ← { s with allowKey := s.flow == 0 }.dropKey
  return (s.moveTo s.cursor.step).push .key

/-- A colon. What may have been a key here is one. -/
def valueMark (s : Scanner) : Step := do
  let s ← match s.keys.lookup s.flow with
    | some key =>
      let s := { s with
        keys := s.keys.filter (·.1 != s.flow)
        tokens := s.tokens.insertIdxIfInBounds key.token .key
        allowKey := false }
      pure <| if s.flow != 0 then s
        else ((s.deepen? key.column).map fun s =>
          { s with tokens := s.tokens.insertIdxIfInBounds key.token .blockMapping }).getD s
    | none => do
      let s ← s.openBlock .blockMapping
      { s with allowKey := s.flow == 0 }.dropKey
  return (s.moveTo s.cursor.step).push .value

/-- A token that may be a key, or the first of one. -/
def keyLike (s : Scanner) (read : Cursor → Except YamlError (Token × Cursor)) : Step := do
  let s ← s.noteKey
  let (t, c) ← read s.cursor
  return ({ s with allowKey := false }.moveTo c).push t

def block (s : Scanner) : Step := do
  let s ← { s with allowKey := true }.dropKey
  let (text, c) ← blockScalar s.indent s.cursor
  return (s.moveTo c).push (.scalar text false)

def plain (s : Scanner) : Step := do
  let s ← s.noteKey
  let (text, crossed, c) := plainScalar (s.flow != 0) s.indent s.cursor
  return ({ s with allowKey := crossed }.moveTo c).push (.scalar text true)

/-- Whether a plain scalar starts here. -/
def startsPlain (s : Scanner) : Bool :=
  let ch := s.cursor.here
  let reserved := "-?:,[]\x7b\x7d#&*!|>'\"%@\x60".toList.contains ch || isGap ch
  !reserved ||
    (!isGap (s.cursor.peek 1) && (ch == '-' || (s.flow == 0 && (ch == '?' || ch == ':'))))

/-! ### Steps -/

/-- The token that starts here. -/
def readToken (s : Scanner) : Step :=
  let c := s.cursor
  let ch := c.here
  let gap := isGap (c.peek 1)
  let inFlow := s.flow != 0
  if ch == '%' && c.column == 0 then do
    let s ← s.closing
    let (t, c) ← readDirective s.cursor
    return (s.moveTo c).push t
  else if c.column == 0 && c.atDocumentMark then
    s.documentMark (if ch == '-' then .documentStart else .documentEnd)
  else if ch == '[' then s.flowStart .flowSequence
  else if ch == '{' then s.flowStart .flowMapping
  else if ch == ']' then s.flowEnd .flowSequenceEnd
  else if ch == '}' then s.flowEnd .flowMappingEnd
  else if ch == ',' then s.flowEntry
  else if ch == '-' && gap then s.blockEntry
  else if ch == '?' && (inFlow || gap) then s.keyMark
  else if ch == ':' && (inFlow || gap) then s.valueMark
  else if ch == '*' then s.keyLike fun c =>
    (anchorName c.step).map fun (name, c) => (.reference name, c)
  else if ch == '&' then s.keyLike fun c =>
    (anchorName c.step).map fun (name, c) => (.anchor name, c)
  else if ch == '!' then s.keyLike readTag
  else if (ch == '|' || ch == '>') && !inFlow then s.block
  else if ch == '\'' || ch == '"' then s.keyLike fun c =>
    (quotedScalar c).map fun (text, c) => (.scalar text false, c)
  else if s.startsPlain then s.plain
  else .error .malformed

/-- The next token, blanks skipped; `none` at the end of the text. -/
def step? (s : Scanner) : Except YamlError (Option Scanner) := do
  let s ← s.skipBlanks.dropStale
  let s := s.unwind s.cursor.column
  if isEnd s.cursor.here then return none
  s.readToken.map some

/-- The tokens of the rest of a text, where `more` reads on behind the next of them. A failure comes
behind the tokens that were read before it. -/
def readOn (s : Scanner) (more : Scanner → Array Token) : Array Token :=
  match s.step? with
  | .error e => s.tokens.push (.failure e)
  | .ok (some s) => more s
  | .ok none =>
    match s.skipBlanks.closing with
    | .error e => s.tokens.push (.failure e)
    | .ok s => s.tokens.push .streamEnd

def run : Nat → Scanner → Array Token
  | 0, s => s.tokens.push (.failure .malformed)
  | fuel + 1, s => s.readOn (run fuel)

end Scanner

/-- The tokens of a text. -/
def tokensOf (cs : List Char) : List Token :=
  (Scanner.run (cs.length + 2) (.ofText cs)).toList

end SourceAtlas.Yaml
