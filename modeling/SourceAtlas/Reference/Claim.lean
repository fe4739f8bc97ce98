import SourceAtlas.Reference.Basic
import SourceAtlas.Reference.Pattern

/-!
# Claims on names

Import and export statements and declarations claim the names that they introduce: they bind a
name, which makes it a reference of their kind, or mark it, which only keeps it from being a usage.

Models `NodeKind`, `classify`, `_string_value`, `_require_source` and the handlers of
`_ReferenceCollector`: `visit_import` with `_import_clause`, `visit_export` and `visit_declaration`
become lists of claims, each standing for one call of `_bind` or `_mark`.
-/

namespace SourceAtlas

open Syntax

/-! ## Kinds of nodes -/

/-- The kinds of nodes that matter to references. -/
inductive NodeClass where
  | import
  | export
  | declaration
  | identifier
  | other
  deriving BEq, DecidableEq, Repr

namespace NodeClass

def declarationKinds : List String := ["variable_declarator", "function_declaration",
  "generator_function_declaration", "class_declaration", "abstract_class_declaration",
  "interface_declaration", "type_alias_declaration", "enum_declaration"]

def identifierKinds : List String := ["identifier", "property_identifier",
  "shorthand_property_identifier", "shorthand_property_identifier_pattern", "type_identifier",
  "private_property_identifier", "statement_identifier"]

/-- The class of a node by its kind (`classify`). -/
def of (kind : String) : NodeClass :=
  if kind == "import_statement" then .import
  else if kind == "export_statement" then .export
  else if declarationKinds.contains kind then .declaration
  else if identifierKinds.contains kind then .identifier
  else .other

def toString : NodeClass → String
  | «import» => "import"
  | «export» => "export"
  | declaration => "declaration"
  | identifier => "identifier"
  | other => "other"

end NodeClass

/-! ## Claims -/

/-- A claim on a node: a binding of a kind, with the module it comes from, or a mark. -/
structure Claim where
  node : Node
  binding : Option (RefKind × Option String)

namespace Claim

def bind (kind : RefKind) (source : Option String) (n : Node) : Claim := ⟨n, some (kind, source)⟩

def mark (n : Node) : Claim := ⟨n, none⟩

/-- The text between the quotes of a string literal (`_string_value`). -/
def literal (source : Array UInt8) (n : Option Node) : Option String :=
  match n with
  | some n =>
    if n.kind == "string" then
      some (String.ofList ((n.text source).toList.drop 1).dropLast)
    else none
  | none => none

/-- The claims on a specifier: its other name is bound and its name marked, or its name is bound. -/
def ofSpecifier (bind : Node → Claim) (specifier : Node) : List Claim :=
  match specifier.child? "alias" with
  | some other => ((specifier.child? "name").map mark).toList ++ [bind other]
  | none => ((specifier.child? "name").map bind).toList

/-- The claims on the specifiers of a clause. -/
def ofSpecifiers (kind : String) (bind : Node → Claim) (clause : Node) : List Claim :=
  (clause.namedChildren.filter (·.kind == kind)).flatMap (ofSpecifier bind)

/-- The claims on the identifiers right below a node. -/
def ofIdentifiers (bind : Node → Claim) (n : Node) : List Claim :=
  (n.namedChildren.filter (·.kind == "identifier")).map bind

/-- The claims of the names in an import clause (`_import_clause`). -/
def ofImportClause (from? : Option String) (clause : Node) : List Claim :=
  clause.namedChildren.flatMap fun child =>
    if child.kind == "identifier" then [bind .import from? child]
    else if child.kind == "namespace_import" then ofIdentifiers (bind .import from?) child
    else if child.kind == "named_imports" then
      ofSpecifiers "import_specifier" (bind .import from?) child
    else []

/-- The claims of an import statement (`visit_import`). A required module is named by its own
clause, unless that name is empty. -/
def ofImport (source : Array UInt8) (n : Node) : List Claim :=
  let from? := literal source (n.child? "source")
  n.namedChildren.flatMap fun child =>
    if child.kind == "import_clause" then ofImportClause from? child
    else if child.kind == "import_require_clause" then
      let required := (literal source (child.child? "source")).filter (· != "")
      (ofIdentifiers (bind .import (required.or from?)) child).take 1
    else []

/-- The claims on what an export statement declares. -/
def ofExportedDeclaration (declaration : Node) : List Claim :=
  if declaration.kind == "lexical_declaration" || declaration.kind == "variable_declaration" then
    (declaration.namedChildren.filter (·.kind == "variable_declarator")).flatMap fun d =>
      (d.boundUnder "name").map (bind .export none)
  else ((declaration.child? "name").map (bind .export none)).toList

/-- The claims of an export statement (`visit_export`). -/
def ofExport (n : Node) : List Claim :=
  ((n.child? "declaration").map ofExportedDeclaration).getD [] ++
    n.namedChildren.flatMap fun child =>
      if child.kind == "export_clause" then
        ofSpecifiers "export_specifier" (bind .export none) child
      else if child.kind == "namespace_export" then ofIdentifiers (bind .export none) child
      else []

/-- The module that a declarator requires (`_require_source`): the literal that is the first
argument of a call of `require` that initialises it. -/
def requiredModule (source : Array UInt8) (declarator : Node) : Option String := do
  let value ← declarator.child? "value"
  guard (value.kind == "call_expression")
  let callee ← value.child? "function"
  guard (callee.kind == "identifier" && callee.text source == "require")
  let arguments ← value.child? "arguments"
  literal source arguments.namedChildren.head?

/-- The claims of a declaration (`visit_declaration`). The parameters of a function are marked. -/
def ofDeclaration (source : Array UInt8) (n : Node) : List Claim :=
  if n.kind == "variable_declarator" then
    let from? := requiredModule source n
    let kind : RefKind := if from?.isSome then .import else .declaration
    (n.boundUnder "name").map (bind kind from?)
  else
    (if n.kind == "function_declaration" || n.kind == "generator_function_declaration" then
      n.parameters.map mark
    else []) ++
    ((n.child? "name").map (bind .declaration none)).toList

end Claim

/-- The claims of a node itself. -/
def claimsOf (source : Array UInt8) (n : Node) : List Claim :=
  match NodeClass.of n.kind with
  | .import => Claim.ofImport source n
  | .export => Claim.ofExport n
  | .declaration => Claim.ofDeclaration source n
  | .identifier | .other => []

end SourceAtlas
