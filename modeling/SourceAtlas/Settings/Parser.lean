import SourceAtlas.Text.Lines

/-!
# Reading data from files

A file of settings is read by a library: it decodes the file piece by piece, parses what it has so
far, and may come to an end before it has seen the whole file. Which pieces it decodes and what the
text of the file comes to is left to the library. That it decodes all bytes in their order, and that
a byte which cannot stand where it does is a failure of its own, is not.

A failure of the library itself is told apart from all others, as only the first kind is met by who
loads a file.
-/

namespace SourceAtlas

open Text

/-- A library that reads data of a kind `δ` from text files and fails with failures of a kind `ε`.
`early` is what it comes to on a text that may go on, if it asks for no more of it. -/
structure Parser (δ ε : Type) where
  cut : List UInt8 → List (List UInt8)
  flatten_cut : ∀ bytes, (cut bytes).flatten = bytes
  early : List Char → Option (Except ε δ)
  whole : List Char → Except ε δ
  isMapping : δ → Bool
  isOwn : ε → Bool

namespace Parser

variable {δ ε : Type} (p : Parser δ ε)

/-- What the library comes to behind some bytes, the pieces of the others yet to decode; nothing if
it meets a byte that cannot stand where it does. -/
def parseFrom (seen : List UInt8) : List (List UInt8) → Option (Except ε δ)
  | [] => if Utf8.isValid seen then some (p.whole (Text.ofFile seen).toList) else none
  | piece :: rest =>
    match Utf8.begun? (seen ++ piece) with
    | none => none
    | some cs =>
      match p.early (unifyBegun cs) with
      | some r => some r
      | none => parseFrom (seen ++ piece) rest

/-- What the library comes to on the bytes of a file. -/
def parse (bytes : List UInt8) : Option (Except ε δ) := p.parseFrom [] (p.cut bytes)

end Parser

end SourceAtlas
