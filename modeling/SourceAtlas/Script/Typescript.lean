import SourceAtlas.Script.Javascript

/-!
# The typed dialects

The grammars of the two typed dialects: the plain dialect's rules with types added. They differ
in what an angle bracket at the start of an expression opens: a type assertion in one, markup in
the other. No word is always reserved; whether a word is a keyword depends on where it stands.

Stands for the grammars that `_get_language` loads for these dialects.
-/

namespace SourceAtlas.Script

open Grammar Grammar.Rule

namespace Typed

/-- Which of the two typed dialects. -/
inductive Variant where
  | assertions
  | markup
  deriving BEq

private def field (name : String) (r : Rule) : Rule := .field name r

private def fieldOpt (name : String) (r : Rule) : Rule := .field name (opt r)

private def typeOpt : Rule := fieldOpt "type" "type_annotation"

private def parametersOpt : Rule := fieldOpt "type_parameters" "type_parameters"

private def argumentsOpt : Rule := fieldOpt "type_arguments" "type_arguments"

private def initializerOpt : Rule := opt "_initializer"

private def optLit (t : String) : Rule := opt (.lit t)

private def propertyAfterDot : Rule :=
  field "property" (any ["private_property_identifier", named "identifier" "property_identifier"])

private def shared (name : String) : Rule := (sharedRules.lookup name).getD .blank

/-- The words that may also serve as names in the typed dialects. -/
def softNames : List String := ["declare", "namespace", "type", "public", "private", "protected",
  "override", "readonly", "module", "any", "number", "boolean", "string", "symbol", "export",
  "object", "new", "readonly"] ++ softWords

/-- The expressions of the plain dialect, with what an angle bracket opens. -/
def bracketForms : Variant → List Rule
  | .assertions => .ref "type_assertion" ::
    (shared "expression").alternatives.filter fun r => r != Rule.ref "_jsx_element"
  | .markup => [shared "expression"]

/-! ## Changed rules -/

def changedExpressions (v : Variant) : List (String × Rule) := [
  ("call_expression", any [
    level "call" (all [field "function" (any ["expression", "import"]), argumentsOpt,
      field "arguments" "arguments"]),
    level "template_call" (all [field "function" (any ["primary_expression", "new_expression"]),
      field "arguments" "template_string"]),
    level "member" (all [field "function" "primary_expression", .lit "?.", argumentsOpt,
      field "arguments" "arguments"])]),
  ("new_expression", rightAt "new" (all [.lit "new", field "constructor" "primary_expression",
    argumentsOpt, fieldOpt "arguments" "arguments"])),
  ("assignment_expression", rightAt "assign" (all [optLit "using",
    field "left" (any ["parenthesized_expression", "_lhs_expression"]), .lit "=",
    field "right" "expression"])),
  ("_augmented_assignment_lhs", any [shared "_augmented_assignment_lhs", "non_null_expression"]),
  ("_lhs_expression", any [shared "_lhs_expression", "non_null_expression"]),
  ("primary_expression", any [shared "primary_expression", "non_null_expression"]),
  ("expression", any ["as_expression", "satisfies_expression", "instantiation_expression",
    "internal_module", any (bracketForms v)]),
  ("parenthesized_expression", parenthesized (any [all ["expression", typeOpt],
    "sequence_expression"])),
  ("jsx_opening_element", .dynamic (-1) (all ["_jsx_start_opening_element", .lit ">"])),
  ("jsx_self_closing_element", .dynamic (-1) (all ["_jsx_start_opening_element", .lit "/>"])),
  ("_reserved_identifier", words softNames)]

def changedDeclarations : List (String × Rule) := [
  ("catch_clause", all [.lit "catch",
    opt (parenthesized (all [
      field "parameter" (any ["identifier", "_destructuring_pattern"]),
      opt (field "type" "type_annotation")])),
    field "body" "statement_block"]),
  ("export_specifier", all [opt (words ["type", "typeof"]), shared "export_specifier"]),
  ("import_specifier", all [opt (words ["type", "typeof"]),
    any [field "name" "_import_identifier",
      all [field "name" (any ["_module_export_name", named (.lit "type") "identifier"]),
        .lit "as", field "alias" "_import_identifier"]]]),
  ("import_clause", any ["namespace_import", "named_imports",
    all ["_import_identifier", opt (all [.lit ",", any ["namespace_import", "named_imports"]])]]),
  ("import_statement", all [.lit "import", opt (words ["type", "typeof"]),
    any [all ["import_clause", "_from_clause"], "import_require_clause",
      field "source" "string"],
    opt "import_attribute", "_semicolon"]),
  ("export_statement", any [shared "export_statement",
    all [.lit "export", .lit "type", "export_clause", opt "_from_clause", "_semicolon"],
    all [.lit "export", .lit "import", "import_alias"],
    all [.lit "export", .lit "=", "expression", "_semicolon"],
    all [.lit "export", .lit "as", .lit "namespace", "identifier", "_semicolon"]]),
  ("variable_declarator", any [
    all [field "name" (any ["identifier", "_destructuring_pattern"]), typeOpt, initializerOpt],
    level "declare" (all [field "name" "identifier", .lit "!",
      field "type" "type_annotation"])]),
  ("declaration", any [shared "declaration", "function_signature", "abstract_class_declaration",
    "module", level "declare" "internal_module", "type_alias_declaration", "enum_declaration",
    "interface_declaration", "import_alias", "ambient_declaration"]),
  ("class_heritage", any [all ["extends_clause", opt "implements_clause"], "implements_clause"]),
  ("class", level "literal" (all [decorators, .lit "class", fieldOpt "name" "_type_identifier",
    parametersOpt, opt "class_heritage", field "body" "class_body"])),
  ("class_declaration", leftAt "declare" (all [decorators, .lit "class",
    field "name" "_type_identifier", parametersOpt, opt "class_heritage",
    field "body" "class_body", opt "_automatic_semicolon"])),
  ("decorator", all [.lit "@", any ["identifier",
    named "decorator_member_expression" "member_expression",
    named "decorator_call_expression" "call_expression",
    named "decorator_parenthesized_expression" "parenthesized_expression"]]),
  ("decorator_call_expression", level "call" (all [
    field "function" (any ["identifier", named "decorator_member_expression" "member_expression"]),
    opt (field "type_arguments" "type_arguments"), field "arguments" "arguments"])),
  ("class_body", braced (rep (any [
    all [decorators, "method_definition", opt "_semicolon"],
    all ["method_signature", any ["_function_signature_automatic_semicolon", .lit ","]],
    "class_static_block",
    all [any ["abstract_method_signature", "index_signature", "method_signature",
      "public_field_definition"], any ["_semicolon", .lit ","]],
    .lit ";"]))),
  ("method_definition", left (all [opt "accessibility_modifier", optLit "static",
    opt "override_modifier", optLit "readonly", optLit "async", opt (words ["get", "set", "*"]),
    field "name" "_property_name", optLit "?", "_call_signature",
    field "body" "statement_block"])),
  ("_formal_parameter", any ["required_parameter", "optional_parameter"]),
  ("_call_signature", all [parametersOpt, field "parameters" "formal_parameters",
    fieldOpt "return_type" (any ["type_annotation", "asserts_annotation",
      "type_predicate_annotation"])])]

/-! ## Added rules -/

def addedExpressions : List (String × Rule) := [
  ("_jsx_start_opening_element", all [.lit "<", opt (all [
    any [field "name" (any ["_jsx_identifier", "jsx_namespace_name"]),
      all [field "name" (any ["identifier", named "nested_identifier" "member_expression"]),
        argumentsOpt]],
    rep (field "attribute" "_jsx_attribute")])]),
  ("_import_identifier", any ["identifier", named (.lit "type") "identifier"]),
  ("non_null_expression", leftAt "unary" (all ["expression", .lit "!"])),
  ("type_assertion", leftAt "unary" (all ["type_arguments", "expression"])),
  ("as_expression", leftAt "binary" (all ["expression", .lit "as",
    any [.lit "const", "type"]])),
  ("satisfies_expression", leftAt "binary" (all ["expression", .lit "satisfies", "type"])),
  ("instantiation_expression", level "instantiation" (all ["expression",
    field "type_arguments" "type_arguments"]))]

/-- The modifiers before a member of a type. -/
private def memberModifiers : List Rule :=
  [opt "accessibility_modifier", optLit "static", opt "override_modifier", optLit "readonly"]

def addedDeclarations : List (String × Rule) := [
  ("public_field_definition", all [decorators,
    opt (any [all [.lit "declare", opt "accessibility_modifier"],
      all ["accessibility_modifier", optLit "declare"]]),
    any [all [optLit "static", opt "override_modifier", optLit "readonly"],
      all [optLit "abstract", optLit "readonly"], all [optLit "readonly", optLit "abstract"],
      optLit "accessor"],
    field "name" "_property_name", opt (words ["?", "!"]), typeOpt, initializerOpt]),
  ("method_signature", all (memberModifiers ++ [optLit "async", opt (words ["get", "set", "*"]),
    field "name" "_property_name", optLit "?", "_call_signature"])),
  ("abstract_method_signature", all [opt "accessibility_modifier", .lit "abstract",
    opt "override_modifier", opt (words ["get", "set", "*"]), field "name" "_property_name",
    optLit "?", "_call_signature"]),
  ("function_signature", all [optLit "async", .lit "function", field "name" "identifier",
    "_call_signature", any ["_semicolon", "_function_signature_automatic_semicolon"]]),
  ("decorator_parenthesized_expression", decoratorParentheses),
  ("import_require_clause", all ["identifier", .lit "=", .lit "require",
    parenthesized (field "source" "string")]),
  ("extends_clause", all [.lit "extends", commaSep1 "_extends_clause_single"]),
  ("_extends_clause_single", level "extends" (all [field "value" "expression", argumentsOpt])),
  ("implements_clause", all [.lit "implements", commaSep1 "type"]),
  ("ambient_declaration", all [.lit "declare", any ["declaration",
    all [.lit "global", "statement_block"],
    all [.lit "module", .lit ".", named "identifier" "property_identifier", .lit ":", "type",
      "_semicolon"]]]),
  ("abstract_class_declaration", level "declare" (all [decorators, .lit "abstract", .lit "class",
    field "name" "_type_identifier", parametersOpt, opt "class_heritage",
    field "body" "class_body"])),
  ("module", all [.lit "module", "_module"]),
  ("internal_module", all [.lit "namespace", "_module"]),
  ("_module", right (all [field "name" (any ["string", "identifier", "nested_identifier"]),
    fieldOpt "body" "statement_block"])),
  ("import_alias", all [.lit "import", "identifier", .lit "=",
    any ["identifier", "nested_identifier"], "_semicolon"]),
  ("nested_type_identifier", level "member" (all [
    field "module" (any ["identifier", "nested_identifier"]), .lit ".",
    field "name" "_type_identifier"])),
  ("interface_declaration", all [.lit "interface", field "name" "_type_identifier",
    parametersOpt, opt "extends_type_clause",
    field "body" (named "object_type" "interface_body")]),
  ("extends_type_clause", all [.lit "extends", commaSep1 (field "type"
    (any ["_type_identifier", "nested_type_identifier", "generic_type"]))]),
  ("enum_declaration", all [optLit "const", .lit "enum", field "name" "identifier",
    field "body" "enum_body"]),
  ("enum_body", braced (opt (all [
    commaSep1 (any [field "name" "_property_name", "enum_assignment"]), optLit ","]))),
  ("enum_assignment", all [field "name" "_property_name", "_initializer"]),
  ("type_alias_declaration", all [.lit "type", field "name" "_type_identifier", parametersOpt,
    .lit "=", field "value" "type", "_semicolon"]),
  ("accessibility_modifier", words ["public", "private", "protected"]),
  ("override_modifier", .lit "override"),
  ("required_parameter", all ["_parameter_name", typeOpt, initializerOpt]),
  ("optional_parameter", all ["_parameter_name", .lit "?", typeOpt, initializerOpt]),
  ("_parameter_name", all [decorators, opt "accessibility_modifier", opt "override_modifier",
    optLit "readonly", field "pattern" (any ["pattern", "this"])])]

def typeRules : List (String × Rule) := [
  ("omitting_type_annotation", all [.lit "-?:", "type"]),
  ("adding_type_annotation", all [.lit "+?:", "type"]),
  ("opting_type_annotation", all [.lit "?:", "type"]),
  ("type_annotation", all [.lit ":", "type"]),
  ("_type_query_member_expression_in_type_annotation", all [
    field "object" (any ["import",
      named "_type_query_member_expression_in_type_annotation" "member_expression",
      named "_type_query_call_expression_in_type_annotation" "call_expression"]),
    .lit ".", propertyAfterDot]),
  ("_type_query_call_expression_in_type_annotation", all [
    field "function" (any ["import",
      named "_type_query_member_expression_in_type_annotation" "member_expression"]),
    field "arguments" "arguments"]),
  ("asserts", all [.lit "asserts", any ["type_predicate", "identifier", "this"]]),
  ("asserts_annotation", all [.lit ":", "asserts"]),
  ("type", any ["primary_type", "function_type", "readonly_type", "constructor_type",
    "infer_type",
    .prec (.num (-1)) none
      (named "_type_query_member_expression_in_type_annotation" "member_expression"),
    .prec (.num (-1)) none
      (named "_type_query_call_expression_in_type_annotation" "call_expression")]),
  ("tuple_parameter", all [field "name" (any ["identifier", "rest_pattern"]),
    field "type" "type_annotation"]),
  ("optional_tuple_parameter", all [field "name" "identifier", .lit "?",
    field "type" "type_annotation"]),
  ("optional_type", all ["type", .lit "?"]),
  ("rest_type", all [.lit "...", "type"]),
  ("_tuple_type_member", any [named "tuple_parameter" "required_parameter",
    named "optional_tuple_parameter" "optional_parameter", "optional_type", "rest_type", "type"]),
  ("constructor_type", left (all [optLit "abstract", .lit "new", parametersOpt,
    field "parameters" "formal_parameters", .lit "=>", field "type" "type"])),
  ("primary_type", any ["parenthesized_type", "predefined_type", "_type_identifier",
    "nested_type_identifier", "generic_type", "object_type", "array_type", "tuple_type",
    "flow_maybe_type", "type_query", "index_type_query", named "this" "this_type",
    "existential_type", "literal_type", "lookup_type", "conditional_type",
    "template_literal_type", "intersection_type", "union_type", .lit "const"]),
  ("template_type", all [.lit "$\x7b", any ["primary_type", "infer_type"], .lit "\x7d"]),
  ("template_literal_type", all [.lit "\x60",
    rep (any [named "_template_chars" "string_fragment", "template_type"]), .lit "\x60"]),
  ("infer_type", right (all [.lit "infer", "_type_identifier",
    opt (all [.lit "extends", "type"])])),
  ("conditional_type", right (all [field "left" "type", .lit "extends", field "right" "type",
    .lit "?", field "consequence" "type", .lit ":", field "alternative" "type"])),
  ("generic_type", level "call" (all [
    field "name" (any ["_type_identifier", "nested_type_identifier"]),
    field "type_arguments" "type_arguments"])),
  ("type_predicate", all [
    field "name" (any ["identifier", "this", named "predefined_type" "identifier"]),
    .lit "is", field "type" "type"]),
  ("type_predicate_annotation", all [.lit ":", "type_predicate"])]

/-- What may stand before a dot or bracket after `typeof`. -/
private def queried : List Rule := ["identifier", "this",
  named "_type_query_subscript_expression" "subscript_expression",
  named "_type_query_member_expression" "member_expression",
  named "_type_query_call_expression" "call_expression"]

private def queriedCallee : Rule := any ["import", "identifier",
  named "_type_query_member_expression" "member_expression",
  named "_type_query_subscript_expression" "subscript_expression"]

def queryRules : List (String × Rule) := [
  ("_type_query_member_expression", all [field "object" (any queried), words [".", "?."],
    propertyAfterDot]),
  ("_type_query_subscript_expression", all [field "object" (any queried), optLit "?.",
    bracketed (field "index" (any ["predefined_type", "string", "number"]))]),
  ("_type_query_call_expression", all [field "function" queriedCallee,
    field "arguments" "arguments"]),
  ("_type_query_instantiation_expression", all [field "function" queriedCallee,
    field "type_arguments" "type_arguments"]),
  ("type_query", right (all [.lit "typeof", any [
    named "_type_query_subscript_expression" "subscript_expression",
    named "_type_query_member_expression" "member_expression",
    named "_type_query_call_expression" "call_expression",
    named "_type_query_instantiation_expression" "instantiation_expression",
    "identifier", "this"]])),
  ("index_type_query", all [.lit "keyof", "primary_type"]),
  ("lookup_type", all ["primary_type", bracketed "type"]),
  ("mapped_type_clause", all [field "name" "_type_identifier", .lit "in", field "type" "type",
    opt (all [.lit "as", field "alias" "type"])]),
  ("literal_type", any [named "_number" "unary_expression", "number", "string", "true", "false",
    "null", "undefined"]),
  ("_number", .prec (.num 1) (some .left) (all [field "operator" (words ["-", "+"]),
    field "argument" "number"])),
  ("existential_type", .lit "*"),
  ("flow_maybe_type", right (all [.lit "?", "primary_type"])),
  ("parenthesized_type", parenthesized "type"),
  ("predefined_type", any [.lit "any", .lit "number", .lit "boolean", .lit "string",
    .lit "symbol", shown (all [.lit "unique", .lit "symbol"]) "unique symbol", .lit "void",
    .lit "unknown", .lit "never", .lit "object"])]

def structureRules : List (String × Rule) := [
  ("type_arguments", all [.lit "<", commaSep1 "type", optLit ",", .lit ">"]),
  ("object_type", all [any [.lit "\x7b", .lit "\x7b|"],
    opt (all [opt (words [",", ";"]),
      sepBy1 (any [.lit ",", "_semicolon"]) (any ["export_statement", "property_signature",
        "call_signature", "construct_signature", "index_signature", "method_signature"]),
      opt (any [.lit ",", "_semicolon"])]),
    any [.lit "\x7d", .lit "|\x7d"]]),
  ("call_signature", "_call_signature"),
  ("property_signature", all (memberModifiers ++ [field "name" "_property_name", optLit "?",
    typeOpt])),
  ("type_parameters", all [.lit "<", commaSep1 "type_parameter", optLit ",", .lit ">"]),
  ("type_parameter", all [optLit "const", field "name" "_type_identifier",
    fieldOpt "constraint" "constraint", fieldOpt "value" "default_type"]),
  ("default_type", all [.lit "=", "type"]),
  ("constraint", all [words ["extends", ":"], "type"]),
  ("construct_signature", all [optLit "abstract", .lit "new", parametersOpt,
    field "parameters" "formal_parameters", typeOpt]),
  ("index_signature", all [
    opt (all [fieldOpt "sign" (words ["-", "+"]), .lit "readonly"]),
    bracketed (any [
      all [field "name" (any ["identifier", named "_reserved_identifier" "identifier"]),
        .lit ":", field "index_type" "type"],
      "mapped_type_clause"]),
    field "type" (any ["type_annotation", "omitting_type_annotation", "adding_type_annotation",
      "opting_type_annotation"])]),
  ("array_type", all ["primary_type", .lit "[", .lit "]"]),
  ("tuple_type", bracketed (all [commaSep "_tuple_type_member", optLit ","])),
  ("readonly_type", all [.lit "readonly", "type"]),
  ("union_type", left (all [opt "type", .lit "|", "type"])),
  ("intersection_type", left (all [opt "type", .lit "&", "type"])),
  ("function_type", left (all [parametersOpt, field "parameters" "formal_parameters", .lit "=>",
    field "return_type" (any ["type", "asserts", "type_predicate"])])),
  ("_type_identifier", named "identifier" "type_identifier")]

/-! ## Precedence -/

private def l (name : String) : Rank := .level name

private def r (name : String) : Rank := .rule name

def typeOrders : List (List Rank) := [
  [l "call", l "instantiation", l "unary", l "binary", r "await_expression", r "arrow_function"],
  [l "extends", l "instantiation"],
  [r "intersection_type", r "union_type", r "conditional_type", r "function_type", l "binary",
    r "type_predicate", r "readonly_type"],
  [r "mapped_type_clause", r "primary_expression"],
  [r "accessibility_modifier", r "primary_expression"],
  [l "unary_void", r "expression"],
  [r "extends_clause", r "primary_expression"],
  [l "unary", l "assign"],
  [l "declare", r "expression"],
  [r "predefined_type", r "unary_expression"],
  [r "type", r "flow_maybe_type"],
  [r "tuple_type", r "array_type", r "pattern", r "type"],
  [r "readonly_type", r "pattern"],
  [r "readonly_type", r "primary_expression"],
  [r "type_query", r "subscript_expression", r "expression"],
  [r "type_query", r "_type_query_subscript_expression"],
  [r "nested_type_identifier", r "generic_type", r "primary_type", r "lookup_type",
    r "index_type_query", r "type"],
  [r "as_expression", r "satisfies_expression", r "primary_type"],
  [r "_type_query_member_expression", r "member_expression"],
  [r "member_expression", r "_type_query_member_expression_in_type_annotation"],
  [r "_type_query_member_expression", r "primary_expression"],
  [r "_type_query_subscript_expression", r "subscript_expression"],
  [r "_type_query_subscript_expression", r "primary_expression"],
  [r "_type_query_call_expression", r "primary_expression"],
  [r "_type_query_instantiation_expression", r "primary_expression"],
  [r "type_query", r "primary_expression"],
  [r "override_modifier", r "primary_expression"],
  [r "decorator_call_expression", r "decorator"],
  [r "literal_type", r "pattern"],
  [r "predefined_type", r "pattern"],
  [r "call_expression", r "_type_query_call_expression"],
  [r "call_expression", r "_type_query_call_expression_in_type_annotation"],
  [r "new_expression", r "primary_expression"],
  [r "meta_property", r "primary_expression"],
  [r "construct_signature", r "_property_name"]]

/-! ## The grammars -/

def definition (v : Variant) : Definition where
  rules := override sharedRules (changedExpressions v ++ changedDeclarations) ++
    addedExpressions ++ addedDeclarations ++ typeRules ++ queryRules ++ structureRules
  tokens := tokens
  contextual := contextual ++ ["_function_signature_automatic_semicolon"]
  extras := ["comment", "html_comment"]
  blanks := blanks
  word := "identifier"
  reserved := []
  inlined := sharedInlined ++ ["_type_identifier", "_jsx_start_opening_element"]
  supertypes := sharedSupertypes ++ ["type", "primary_type"]
  orders := sharedOrders ++ typeOrders

end Typed

end SourceAtlas.Script
