/-!
# Tokens that depend on their surroundings

Some tokens are not found by their spelling alone: the semicolon that a line end or a closing brace
stands for, the text between the substitutions of a template, the question mark of a conditional
expression, markup text, and comments in the style of markup. Which of them is looked for is told
by which tokens the parser could use at the place.

A text is an array of code points; reading past its end gives `0`.

Stands for the scanners that come with the grammars that `_get_language` loads.
-/

namespace SourceAtlas.Script

/-! ## Characters -/

/-- Blanks as line layout understands them. -/
def isLayoutBlank (c : Nat) : Bool :=
  (0x9 ≤ c && c ≤ 0xD) || c == 0x20 || c == 0x85 || c == 0x1680 ||
    (0x2000 ≤ c && c ≤ 0x2006) || (0x2008 ≤ c && c ≤ 0x200A) || c == 0x2028 || c == 0x2029 ||
    c == 0x205F || c == 0x3000

def isLineEnd (c : Nat) : Bool := c == 0xA || c == 0x2028 || c == 0x2029

def isAsciiLetter (c : Nat) : Bool := (0x41 ≤ c && c ≤ 0x5A) || (0x61 ≤ c && c ≤ 0x7A)

/-- A letter, as far as it matters after a word of two letters: every character beyond ASCII that
is no blank counts as one. -/
def isLetterLike (c : Nat) : Bool := isAsciiLetter c || (0xAA ≤ c && !isLayoutBlank c)

def isAsciiDigit (c : Nat) : Bool := 0x30 ≤ c && c ≤ 0x39

/-- The code point at a place, `0` past the end. -/
def peek (text : Array Nat) (i : Nat) : Nat := text.getD i 0

/-- The first place from `i` on whose character does not satisfy `p`; the end stops it too. -/
def skipWhile (text : Array Nat) (p : Nat → Bool) (i : Nat) : Nat :=
  if h : i < text.size then if p text[i] then skipWhile text p (i + 1) else i else i
termination_by text.size - i

/-- The place where a character of `text` from `i` on differs from those of `word`, or `none`
when `word` is there. -/
def mismatch (text : Array Nat) : List Char → Nat → Option Nat
  | [], _ => none
  | c :: cs, i => if peek text i == c.toNat then mismatch text cs (i + 1) else some i

/-- A token found: its name, start and stop. -/
abbrev Found := Option (String × Nat × Nat)

/-! ## Templates and markup -/

/-- The text of a template up to the next substitution, escape or closing quote; empty text is no
token, nor is text that runs to the end. -/
def scanTemplate (text : Array Nat) (start i : Nat) : Found :=
  let here : Found := if start < i then some ("_template_chars", start, i) else none
  if h : i < text.size then
    let c := text[i]
    if c == 0x60 || c == 0x5C then here
    else if c == 0 then none
    else if c == 0x24 then
      if peek text (i + 1) == 0x7B then here else scanTemplate text start (i + 1)
    else scanTemplate text start (i + 1)
  else none
termination_by text.size - i

/-- Markup text: up to a bracket, a brace or an ampersand. It counts only when it holds more than
line ends and the blanks after them. Answers where it stops and whether it counts. -/
def scanMarkup (text : Array Nat) (i : Nat) (afterLineEnd seen : Bool) : Nat × Bool :=
  if h : i < text.size then
    let c := text[i]
    if c == 0 || c == 0x3C || c == 0x3E || c == 0x7B || c == 0x7D || c == 0x26 then (i, seen)
    else if c == 0xA then scanMarkup text (i + 1) true seen
    else
      let after := afterLineEnd && isLayoutBlank c
      scanMarkup text (i + 1) after (seen || !after)
  else (i, seen)
termination_by text.size - i

/-! ## Semicolons -/

/-- How a run of blanks and comments ends: at a slash that starts no comment, or, when only looking
for a line end, behind one comment without any. -/
inductive BlankEnd where
  | slash
  | comment
  | clear

/-- Behind a comment between stars that was opened before `i`; `lineEnd` tells whether it holds a
line end. -/
def skipBlock (text : Array Nat) (i : Nat) (lineEnd : Bool) : Nat × Bool × Bool :=
  if h : i < text.size then
    let c := text[i]
    if c == 0 then (i, lineEnd, false)
    else if c == 0x2A then
      if peek text (i + 1) == 0x2F then (i + 2, lineEnd, true) else skipBlock text (i + 1) lineEnd
    else skipBlock text (i + 1) (lineEnd || isLineEnd c)
  else (i, lineEnd, false)
termination_by text.size - i

/-- Skips blanks and comments from `i` on. With `stopAtComment` it stops behind a closed comment
that no slash follows. Answers the place, how it ended and whether a comment was seen. -/
def skipBlanks (text : Array Nat) (stopAtComment : Bool) (lineStops : Nat → Bool)
    (markBlocks : Bool) : Nat → Nat → Bool → Bool → Nat × BlankEnd × Bool
  | 0, i, seen, _ => (i, .clear, seen)
  | fuel + 1, i, seen, lineEnd =>
    let i := skipWhile text isLayoutBlank i
    if peek text i == 0x2F then
      if peek text (i + 1) == 0x2F then
        let j := skipWhile text (fun c => c != 0 && !lineStops c) (i + 2)
        skipBlanks text stopAtComment lineStops markBlocks fuel j true lineEnd
      else if peek text (i + 1) == 0x2A then
        let (j, newLine, closed) := skipBlock text (i + 2) lineEnd
        let seen := seen || (closed && markBlocks)
        if closed && stopAtComment && peek text j != 0x2F then
          (j, if newLine then .clear else .comment, seen)
        else skipBlanks text stopAtComment lineStops markBlocks fuel j seen newLine
      else (i + 1, .slash, seen)
    else (i, .clear, seen)

/-- Whether the word at `i` is no operator that continues the line: `in` and `instanceof`. -/
def startsStatementWord (text : Array Nat) (i : Nat) : Bool :=
  if peek text (i + 1) != 0x6E then true
  else if !isLetterLike (peek text (i + 2)) then false
  else match mismatch text "stanceof".toList (i + 2) with
    | some _ => true
    | none => isLetterLike (peek text (i + 10))

/-- Whether a sign at `i` is doubled. -/
def isDoubled (text : Array Nat) (i : Nat) : Bool := peek text (i + 1) == peek text i

/-! ## Comments in the style of markup -/

def scanMarkupComment (text : Array Nat) (pos : Nat) : Found :=
  let i := skipWhile text (fun c => isLayoutBlank c || c == 0x2028 || c == 0x2029) pos
  let behind := if (mismatch text "<!--".toList i).isNone then some (i + 4)
    else if (mismatch text "-->".toList i).isNone then some (i + 3) else none
  behind.map fun j =>
    ("html_comment", i, skipWhile text (fun c => c != 0 && !isLineEnd c) j)

/-! ## The plain dialect -/

namespace Plain

/-- Looks for the semicolon that the layout stands for. `inStatement` says that no operator may
follow here. Answers whether it is there, where the search stopped and whether it met a comment. -/
def semicolon (text : Array Nat) (inStatement : Bool) : Nat → Nat → Bool → Bool × Nat × Bool
  | 0, i, seen => (false, i, seen)
  | fuel + 1, i, seen =>
    let afterLine (i : Nat) (seen : Bool) : Bool × Nat × Bool :=
      match skipBlanks text false isLineEnd true (text.size + 1) (i + 1) seen false with
      | (j, .slash, seen) => (false, j, seen)
      | (j, _, seen) =>
        let c := peek text j
        if "`,:;*%><=[(?^|&/".toList.any (·.toNat == c) then (false, j, seen)
        else if c == 0x2E then (isAsciiDigit (peek text (j + 1)), j + 1, seen)
        else if c == 0x2B || c == 0x2D then (isDoubled text j, j + 1, seen)
        else if c == 0x21 then (peek text (j + 1) != 0x3D, j + 1, seen)
        else if c == 0x69 then (startsStatementWord text j, j + 1, seen)
        else (true, j, seen)
    let atPlace (i : Nat) (seen : Bool) : Bool × Nat × Bool :=
      let c := peek text i
      if c == 0x7D then (true, i, seen)
      else if isLineEnd c then afterLine i seen
      else if !isLayoutBlank c then (false, i, seen)
      else semicolon text inStatement fuel (i + 1) seen
    if peek text i == 0 then (true, i, seen)
    else if peek text i == 0x2F then
      match skipBlanks text true isLineEnd true (text.size + 1) i seen false with
      | (j, .slash, seen) => (false, j, seen)
      | (j, .clear, seen) =>
        if inStatement && peek text j != 0x2C && peek text j != 0x3D then (true, j, seen)
        else atPlace j seen
      | (j, .comment, seen) => atPlace j seen
    else atPlace i seen

/-- The question mark of a conditional expression, not that of `??` or `?.`. -/
def questionMark (text : Array Nat) (pos : Nat) : Found :=
  let i := skipWhile text isLayoutBlank pos
  if peek text i != 0x3F || peek text (i + 1) == 0x3F then none
  else if peek text (i + 1) == 0x2E && !isAsciiDigit (peek text (i + 2)) then none
  else some ("_ternary_qmark", i, i + 1)

/-- The contextual token at `pos`, given which are allowed. -/
def scan (allowed : String → Bool) (text : Array Nat) (pos : Nat) : Found :=
  if allowed "_template_chars" then
    if allowed "_automatic_semicolon" then none else scanTemplate text pos pos
  else
    let markup := if allowed "jsx_text" then scanMarkup text pos false false else (pos, false)
    if markup.2 then some ("jsx_text", pos, markup.1)
    else
      let pos' := if allowed "jsx_text" then markup.1 else pos
      if allowed "_automatic_semicolon" then
        match semicolon text (!allowed "||") (text.size + 1) pos' false with
        | (true, _, _) => some ("_automatic_semicolon", pos, pos)
        | (false, j, seen) =>
          if !seen && allowed "_ternary_qmark" && peek text j == 0x3F then questionMark text j
          else none
      else if allowed "_ternary_qmark" then questionMark text pos'
      else if allowed "html_comment" && !allowed "||" && !allowed "escape_sequence" &&
          !allowed "regex_pattern" then scanMarkupComment text pos'
      else none

end Plain

/-! ## The typed dialects -/

namespace Typed

/-- Looks for the semicolon that the layout stands for. `inExpression` says that an operator could
follow, `inSignature` that a function body could. -/
def semicolon (text : Array Nat) (inExpression inSignature : Bool) (pos : Nat) :
    Bool × Nat × Bool :=
  let i := skipWhile text (fun c => isLayoutBlank c && c != 0xA) pos
  let c := peek text i
  if c == 0 then (true, i, false)
  else if c == 0x7D then
    let j := skipWhile text isLayoutBlank (i + 1)
    (if peek text j == 0x3A then inExpression else true, j, false)
  else if c != 0xA then (false, i, false)
  else
    match skipBlanks text false (· == 0xA) false (text.size + 1) (i + 1) false false with
    | (j, .slash, seen) => (false, j, seen)
    | (j, _, seen) =>
      let c := peek text j
      if "`,.;*%><=?^|&/:".toList.any (·.toNat == c) then (false, j, seen)
      else if c == 0x7B then (!inSignature, j, seen)
      else if c == 0x28 || c == 0x5B then (!inExpression, j, seen)
      else if c == 0x2B || c == 0x2D then (isDoubled text j, j + 1, seen)
      else if c == 0x21 then (peek text (j + 1) != 0x3D, j + 1, seen)
      else if c == 0x69 then (startsStatementWord text j, j + 1, seen)
      else (true, j, seen)

/-- The question mark of a conditional expression, not that of `??`, `?.` or an optional
parameter. -/
def questionMark (text : Array Nat) (pos : Nat) : Found :=
  let i := skipWhile text isLayoutBlank pos
  if peek text i != 0x3F || peek text (i + 1) == 0x3F || peek text (i + 1) == 0x2E then none
  else
    let j := skipWhile text isLayoutBlank (i + 1)
    let c := peek text j
    if c == 0x3A || c == 0x29 || c == 0x2C then none
    else if c == 0x2E && !isAsciiDigit (peek text (j + 1)) then none
    else some ("_ternary_qmark", i, i + 1)

/-- The contextual token at `pos`, given which are allowed. -/
def scan (allowed : String → Bool) (text : Array Nat) (pos : Nat) : Found :=
  if allowed "_template_chars" then
    if allowed "_automatic_semicolon" then none else scanTemplate text pos pos
  else
    let markup := if allowed "jsx_text" then scanMarkup text pos false false else (pos, false)
    if markup.2 then some ("jsx_text", pos, markup.1)
    else
      let pos' := if allowed "jsx_text" then markup.1 else pos
      let signature := allowed "_function_signature_automatic_semicolon"
      if allowed "_automatic_semicolon" || signature then
        match semicolon text (allowed "||") signature pos' with
        | (true, _, _) => some ("_automatic_semicolon", pos, pos)
        | (false, j, seen) =>
          if !seen && allowed "_ternary_qmark" && peek text j == 0x3F then questionMark text j
          else none
      else if allowed "_ternary_qmark" then questionMark text pos'
      else if allowed "html_comment" && !allowed "||" && !allowed "escape_sequence" &&
          !allowed "regex_pattern" then scanMarkupComment text pos'
      else none

end Typed

end SourceAtlas.Script
