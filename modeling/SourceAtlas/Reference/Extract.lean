import SourceAtlas.Reference.Collect
import SourceAtlas.Script.Dialect
import SourceAtlas.Syntax.Build
import SourceAtlas.Text.Class

/-!
# Reading the references of a file

The references of a text, by the dialect that the file's path tells. A blank text and a file of
another kind have none; a text that is not of the dialect is an error.

Models `extract_or_raise` (`extract?`) and `ParseFailure`. `extract` answers with no references
where `extract?` fails.
-/

namespace SourceAtlas

open Grammar Script Syntax

/-- A file whose text is not of its dialect. -/
structure ParseFailure where
  path : String
  dialect : Dialect
  deriving BEq, DecidableEq, Repr

namespace ParseFailure

def message (e : ParseFailure) : String :=
  "Failed to parse " ++ e.path ++ ": syntax error in " ++ e.dialect.toString ++ " source"

end ParseFailure

/-- What a file's path and text call for. -/
def dialectToRead (path text : String) : Option Dialect :=
  if Text.isAllBlank text then none else Dialect.ofPath? path

/-- The references of a text, or the failure to parse it. -/
def extract? (path text : String) : Except ParseFailure (List Reference) :=
  match dialectToRead path text with
  | none => .ok []
  | some d =>
    let points := (text.toList.map Char.toNat).toArray
    let language := d.language
    match language.parse points with
    | none => .error ⟨path, d⟩
    | some tree =>
      .ok (referencesOf (Text.Utf8.encode text.toList).toArray
        (Node.ofParseTree language points tree))

end SourceAtlas
