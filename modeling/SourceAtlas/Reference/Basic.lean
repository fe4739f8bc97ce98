/-!
# References

An occurrence of a name in a file, and what it is there.

Models `RefType` and `VariableReference`. The file of a reference (`file_path`) is left out, as
`extract` gives all references of a text the same.
-/

namespace SourceAtlas

/-- What an occurrence of a name does. -/
inductive RefKind where
  | declaration
  | import
  | export
  | usage
  deriving BEq, DecidableEq, Repr, Inhabited

namespace RefKind

def all : List RefKind := [declaration, «import», «export», usage]

def toString : RefKind → String
  | declaration => "declaration"
  | «import» => "import"
  | «export» => "export"
  | usage => "usage"

/-- The kind that a word names. -/
def ofString? (s : String) : Option RefKind := all.find? fun k => k.toString == s

end RefKind

/-- An occurrence of a name. `source` is the module that an import names. -/
structure Reference where
  name : String
  kind : RefKind
  line : Nat
  source : Option String
  deriving BEq, DecidableEq, Repr, Inhabited

end SourceAtlas
