import SourceAtlas.Grammar.Rule

/-!
# Tokens of the script dialects

The patterns of names, numbers, strings, comments and regular expressions, common to all dialects.
-/

namespace SourceAtlas.Script

open Grammar

/-! ## Character classes -/

def ofPoints (ps : List (Nat × Nat)) : CharSet := ⟨ps⟩

/-- Tab to carriage return, and the space. -/
def asciiBlank : CharSet := ofPoints [(0x9, 0xD), (0x20, 0x20)]

/-- The space separators. -/
def spaceSeparator : CharSet :=
  ofPoints [(0x20, 0x20), (0xA0, 0xA0), (0x1680, 0x1680), (0x2000, 0x200A), (0x202F, 0x202F),
    (0x205F, 0x205F), (0x3000, 0x3000)]

/-- Marks that count as blanks: byte order mark, word joiner, zero width space and the line and
paragraph separators. -/
def blankMark : CharSet :=
  ofPoints [(0xFEFF, 0xFEFF), (0x2060, 0x2060), (0x200B, 0x200B), (0x2028, 0x2029)]

/-- What may stand between tokens. -/
def blanks : CharSet := asciiBlank ++ spaceSeparator ++ blankMark

def digit : CharSet := .range '0' '9'

def hexDigit : CharSet := digit ++ .range 'a' 'f' ++ .range 'A' 'F'

def letter : CharSet := .range 'a' 'z' ++ .range 'A' 'Z'

/-- Characters that end a name. -/
def namePunctuation : CharSet :=
  ofPoints [(0, 0x1F)] ++ asciiBlank ++ spaceSeparator ++ blankMark ++
    .of ":;`\"'@#.,|^&<=>+-*/\\%?!~()[]\x7b\x7d"

def nameStart : CharSet := (namePunctuation ++ digit).compl

def namePart : CharSet := namePunctuation.compl

private def ch (c : Char) : Pattern := .set (.single c)

/-! ## Names -/

/-- A character of a name written by its code point. -/
def namedPoint : Pattern :=
  .alt (.sequence [.text "\\u", (Pattern.set hexDigit).copies 4])
    (.sequence [.text "\\u\x7b", (Pattern.set hexDigit).plus, .text "\x7d"])

def name : Pattern :=
  .seq (.alt (.set nameStart) namedPoint) (.star (.alt (.set namePart) namedPoint))

/-! ## Numbers -/

/-- Digits of one kind, single underscores between them. -/
def digits (d : CharSet) : Pattern :=
  .seq (.set d) (.star (.seq (ch '_').opt (.set d)))

def radix (low high : Char) (d : CharSet) : Pattern :=
  .sequence [ch '0', .set (.single low ++ .single high), digits d]

def number : Pattern :=
  let decimal := digits digit
  let exponent := .sequence [.set (.of "eE"), (Pattern.set (.of "-+")).opt, decimal]
  let integer := .alt (ch '0')
    (.sequence [(ch '0').opt, .set (.range '1' '9'), (Pattern.seq (ch '_').opt decimal).opt])
  let hex := radix 'x' 'X' hexDigit
  let binary := radix 'b' 'B' (.range '0' '1')
  let octal := radix 'o' 'O' (.range '0' '7')
  .oneOf [
    hex,
    .sequence [integer, ch '.', decimal.opt, exponent.opt],
    .sequence [ch '.', decimal, exponent.opt],
    .sequence [integer, exponent],
    decimal,
    binary,
    octal,
    .seq (.oneOf [hex, binary, octal, decimal]) (ch 'n')]

/-! ## Text -/

/-- Runs of string characters: no quote, escape or line end. -/
def stringRun (quote : Char) : Pattern :=
  (Pattern.set (CharSet.single quote ++ .of "\\\r\n").compl).plus

def escape : Pattern :=
  .seq (ch '\\') (.oneOf [
    .set (CharSet.of "xu01234567").compl,
    (Pattern.set (.range '0' '7')).between 1 2,
    .seq (ch 'x') ((Pattern.set hexDigit).copies 2),
    .seq (ch 'u') ((Pattern.set hexDigit).copies 4),
    .sequence [.text "u\x7b", (Pattern.set hexDigit).plus, .text "\x7d"],
    .seq (.set (.of "\r?")) (.set (CharSet.of "\n" ++ ofPoints [(0x2028, 0x2029)]))])

/-- Runs of text between the quotes of a markup attribute. -/
def markupRun (quote : Char) : Pattern :=
  (Pattern.alt (.set (CharSet.single quote ++ .single '&').compl)
    (.seq (ch '&') (.set (CharSet.single '#' ++ letter).compl))).plus

def comment : Pattern :=
  let notStar := Pattern.set (CharSet.single '*').compl
  .alt (.seq (.text "//") (.star (.set (CharSet.of "\r\n" ++ ofPoints [(0x2028, 0x2029)]).compl)))
    (.sequence [.text "/*", .star notStar, (ch '*').plus,
      .star (.sequence [.set (CharSet.of "/*").compl, .star notStar, (ch '*').plus]), ch '/'])

def notLineEnd : Pattern := .set (CharSet.single '\n').compl

def regexBody : Pattern :=
  let escaped := Pattern.seq (ch '\\') notLineEnd
  (Pattern.oneOf [
    .sequence [ch '[', .star (.alt escaped (.set (CharSet.of "]\n\\").compl)), ch ']'],
    escaped,
    .set (CharSet.of "/\\[\n").compl]).plus

/-! ## The tokens -/

/-- The tokens that have a name, in all dialects. -/
def tokens : List Token := [
  { name := "identifier", pattern := name },
  { name := "hash_bang_line", pattern := .seq (.text "#!") (.star notLineEnd) },
  { name := "comment", pattern := comment },
  { name := "html_character_reference"
    pattern := .sequence [ch '&', .alt
      (.seq (ch '#') (.alt (.seq (.set (.of "xX")) ((Pattern.set hexDigit).between 1 5))
        ((Pattern.set digit).between 1 4)))
      ((Pattern.set letter).between 1 29), ch ';'] },
  { name := "jsx_identifier"
    pattern := .sequence [.set (letter ++ .of "_$"), .star (.set (letter ++ digit ++ .of "_$")),
      ch '-', .star (.set (letter ++ digit ++ .of "_$-"))] },
  { name := "unescaped_double_jsx_string_fragment", pattern := markupRun '"', weight := 1
    glued := true },
  { name := "unescaped_single_jsx_string_fragment", pattern := markupRun '\'', weight := 1
    glued := true },
  { name := "unescaped_double_string_fragment", pattern := stringRun '"', weight := 1
    glued := true },
  { name := "unescaped_single_string_fragment", pattern := stringRun '\'', weight := 1
    glued := true },
  { name := "escape_sequence", pattern := escape, glued := true },
  { name := "regex_pattern", pattern := regexBody, weight := -1, glued := true },
  { name := "regex_close", pattern := ch '/', text := some "/", weight := 1, glued := true
    named := false },
  { name := "regex_flags", pattern := (Pattern.set (.range 'a' 'z')).plus, glued := true },
  { name := "number", pattern := number },
  { name := "private_property_identifier", pattern := .seq (ch '#') name },
  { name := "static get"
    pattern := .sequence [.text "static", (Pattern.set asciiBlank).plus, .text "get",
      .star (.set asciiBlank), ch '\n']
    named := false },
  .word "super" "super", .word "true" "true", .word "false" "false", .word "null" "null",
  .word "undefined" "undefined", .word "this" "this"]

/-- The names of the tokens that depend on their surroundings. -/
def contextual : List String := [
  "_automatic_semicolon", "_template_chars", "_ternary_qmark", "html_comment", "||",
  "escape_sequence", "regex_pattern", "jsx_text"]

end SourceAtlas.Script
