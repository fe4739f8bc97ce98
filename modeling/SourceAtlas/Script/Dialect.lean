import SourceAtlas.Grammar.Parse
import SourceAtlas.Path.Basic
import SourceAtlas.Script.Context
import SourceAtlas.Script.Typescript
import SourceAtlas.Text.Lower

/-!
# Dialects

The dialects that references are read from, told by the suffix of a file's name.

Models `detect_dialect`.
-/

namespace SourceAtlas.Script

open Grammar

/-- A dialect: the plain one, markup included, and the two typed ones. -/
inductive Dialect where
  | plain
  | typed
  | typedMarkup
  deriving BEq, DecidableEq, Repr, Inhabited

namespace Dialect

def toString : Dialect → String
  | plain => "javascript"
  | typed => "typescript"
  | typedMarkup => "tsx"

def suffixes : List (String × Dialect) := [(".js", plain), (".mjs", plain), (".cjs", plain),
  (".jsx", plain), (".ts", typed), (".mts", typed), (".cts", typed), (".tsx", typedMarkup)]

/-- The dialect of a file, by the suffix of its path in lower case. -/
def ofPath? (path : String) : Option Dialect := suffixes.lookup (Text.lower (Path.suffix path))

def plainLanguage : Language := Plain.definition.language Plain.scan

def typedLanguage : Language := (Typed.definition .assertions).language Typed.scan

def typedMarkupLanguage : Language := (Typed.definition .markup).language Typed.scan

def language : Dialect → Language
  | plain => plainLanguage
  | typed => typedLanguage
  | typedMarkup => typedMarkupLanguage

end Dialect

end SourceAtlas.Script
