import SourceAtlas.Text.Utf8

/-!
# Line ends

Texts as they are read from files: bytes that are no UTF-8 are replaced, and every line ends in a
line feed.

`ofFile` models `read_source`.
-/

namespace SourceAtlas.Text

/-- Writes each carriage return, with the line feed that may follow it, as a line feed. -/
def unifyLines : List Char → List Char
  | [] => []
  | '\r' :: '\n' :: cs => '\n' :: unifyLines cs
  | c :: cs => (if c == '\r' then '\n' else c) :: unifyLines cs

/-- The lines of a text that may go on: a carriage return at its end waits for what follows. -/
def unifyBegun (cs : List Char) : List Char :=
  unifyLines (if cs.getLast? == some '\r' then cs.dropLast else cs)

/-- The text of a file. -/
def ofFile (bytes : List UInt8) : String := String.ofList (unifyLines (Utf8.decode bytes))

end SourceAtlas.Text
