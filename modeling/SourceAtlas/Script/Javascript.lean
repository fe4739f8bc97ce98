import SourceAtlas.Script.Token

/-!
# The plain dialect

The grammar of the plain dialect, markup included. Words that are always reserved are listed in
`reservedWords`; property names may be any word.

Stands for the grammar that `_get_language` loads for this dialect.
-/

namespace SourceAtlas.Script

open Grammar Grammar.Rule

/-! ## Rules shared by all dialects -/

private def field (name : String) (r : Rule) : Rule := .field name r

/-- Any one of the texts. -/
def words (ts : List String) : Rule := any (ts.map .lit)

private def initializerOpt : Rule := opt "_initializer"

private def asiOpt : Rule := opt "_automatic_semicolon"

/-- `r` between curly brackets. -/
def braced (r : Rule) : Rule := all [.lit "\x7b", r, .lit "\x7d"]

def parenthesized (r : Rule) : Rule := all [.lit "(", r, .lit ")"]

def bracketed (r : Rule) : Rule := all [.lit "[", r, .lit "]"]

/-- A name or one of the words that may also serve as names. -/
def anyName : Rule := any ["identifier", "_reserved_identifier"]

def decorators : Rule := rep (field "decorator" "decorator")

/-- The words that may also serve as names in the plain dialect. -/
def softWords : List String := ["get", "set", "async", "await", "static", "export", "let"]

/-- The binary operators with their precedence levels. -/
def binaryOperators : List (String × String) := [
  ("&&", "logical_and"), ("||", "logical_or"),
  (">>", "binary_shift"), (">>>", "binary_shift"), ("<<", "binary_shift"),
  ("&", "bitwise_and"), ("^", "bitwise_xor"), ("|", "bitwise_or"),
  ("+", "binary_plus"), ("-", "binary_plus"),
  ("*", "binary_times"), ("/", "binary_times"), ("%", "binary_times"), ("**", "binary_exp"),
  ("<", "binary_relation"), ("<=", "binary_relation"),
  ("==", "binary_equality"), ("===", "binary_equality"),
  ("!=", "binary_equality"), ("!==", "binary_equality"),
  (">=", "binary_relation"), (">", "binary_relation"),
  ("??", "ternary"), ("instanceof", "binary_relation"), ("in", "binary_relation")]

/-- One form of binary expression; only powers group to the right, and only `in` takes a private
name on its left. -/
def binaryForm (operator level : String) : Rule :=
  let operand : Rule := if operator == "in" then any ["expression", "private_property_identifier"]
    else "expression"
  .prec (.named level) (some (if operator == "**" then .right else .left)) (all [
    field "left" operand, field "operator" (.lit operator), field "right" "expression"])

/-- The head of a function up to its body. `name` is its name, if it takes one. -/
def functionHead (star : Bool) (name : Rule) : List Rule :=
  [opt (.lit "async"), .lit "function"] ++ (if star then [.lit "*"] else []) ++
    [field "name" name, "_call_signature", field "body" "statement_block"]

/-- The text between quotes, with its run of plain characters. -/
def quoted (quote run : String) (other : Rule) : Rule :=
  all [.lit quote, rep (any [named run "string_fragment", other]), .lit quote]

/-- The head of a loop over the elements of a value, with what it may assign to. -/
def forHeader (target : Rule) : Rule :=
  parenthesized (all [
    any [field "left" (any [target, "parenthesized_expression"]),
      all [field "kind" (.lit "var"),
        field "left" (any ["identifier", "_destructuring_pattern"]), initializerOpt],
      all [field "kind" (words ["let", "const"]),
        field "left" (any ["identifier", "_destructuring_pattern"]), asiOpt]],
    field "operator" (words ["in", "of"]), field "right" "_expressions"])

/-- The rules from the text's start down to its statements. -/
def programRules : List (String × Rule) := [
  ("program", all [opt "hash_bang_line", rep "statement"]),
  ("export_statement", any [
    all [.lit "export",
      any [all [.lit "*", "_from_clause"], all ["namespace_export", "_from_clause"],
        all ["export_clause", "_from_clause"], "export_clause"],
      "_semicolon"],
    all [decorators, .lit "export",
      any [field "declaration" "declaration",
        all [.lit "default", any [field "declaration" "declaration",
          all [field "value" "expression", "_semicolon"]]]]]]),
  ("namespace_export", all [.lit "*", .lit "as", "_module_export_name"]),
  ("export_clause", braced (all [commaSep "export_specifier", opt (.lit ",")])),
  ("export_specifier", all [field "name" "_module_export_name",
    opt (all [.lit "as", field "alias" "_module_export_name"])]),
  ("_module_export_name", any ["identifier", "string", .lit "default"]),
  ("declaration", any ["function_declaration", "generator_function_declaration",
    "class_declaration", "lexical_declaration", "variable_declaration"]),
  ("import", .lit "import"),
  ("import_statement", all [.lit "import",
    any [all ["import_clause", "_from_clause"], field "source" "string"],
    opt "import_attribute", "_semicolon"]),
  ("import_clause", any ["namespace_import", "named_imports",
    all ["identifier", opt (all [.lit ",", any ["namespace_import", "named_imports"]])]]),
  ("_from_clause", all [.lit "from", field "source" "string"]),
  ("namespace_import", all [.lit "*", .lit "as", "identifier"]),
  ("named_imports", braced (all [commaSep "import_specifier", opt (.lit ",")])),
  ("import_specifier", any [field "name" "identifier",
    all [field "name" "_module_export_name", .lit "as", field "alias" "identifier"]]),
  ("import_attribute", all [.lit "with", "object"])]

def statementRules : List (String × Rule) := [
  ("statement", any ["export_statement", "import_statement", "debugger_statement",
    "expression_statement", "declaration", "statement_block", "if_statement", "switch_statement",
    "for_statement", "for_in_statement", "while_statement", "do_statement", "try_statement",
    "with_statement", "break_statement", "continue_statement", "return_statement",
    "throw_statement", "empty_statement", "labeled_statement"]),
  ("expression_statement", all ["_expressions", "_semicolon"]),
  ("variable_declaration", all [.lit "var", commaSep1 "variable_declarator", "_semicolon"]),
  ("lexical_declaration", all [field "kind" (words ["let", "const"]),
    commaSep1 "variable_declarator", "_semicolon"]),
  ("variable_declarator", all [
    field "name" (any ["identifier", "_destructuring_pattern"]), initializerOpt]),
  ("statement_block", right (all [.lit "\x7b", rep "statement", .lit "\x7d", asiOpt])),
  ("else_clause", all [.lit "else", "statement"]),
  ("if_statement", right (all [.lit "if", field "condition" "parenthesized_expression",
    field "consequence" "statement", opt (field "alternative" "else_clause")])),
  ("switch_statement", all [.lit "switch", field "value" "parenthesized_expression",
    field "body" "switch_body"]),
  ("for_statement", all [.lit "for", .lit "(",
    any [field "initializer" (any ["lexical_declaration", "variable_declaration"]),
      all [field "initializer" "_expressions", .lit ";"], field "initializer" "empty_statement"],
    field "condition" (any [all ["_expressions", .lit ";"], "empty_statement"]),
    field "increment" (opt "_expressions"), .lit ")", field "body" "statement"]),
  ("for_in_statement", all [.lit "for", opt (.lit "await"), "_for_header",
    field "body" "statement"]),
  ("_for_header", forHeader "_lhs_expression"),
  ("while_statement", all [.lit "while", field "condition" "parenthesized_expression",
    field "body" "statement"]),
  ("do_statement", right (all [.lit "do", field "body" "statement", .lit "while",
    field "condition" "parenthesized_expression", opt "_semicolon"])),
  ("try_statement", all [.lit "try", field "body" "statement_block",
    opt (field "handler" "catch_clause"), opt (field "finalizer" "finally_clause")]),
  ("with_statement", all [.lit "with", field "object" "parenthesized_expression",
    field "body" "statement"]),
  ("break_statement", all [.lit "break",
    field "label" (opt (named "identifier" "statement_identifier")), "_semicolon"]),
  ("continue_statement", all [.lit "continue",
    field "label" (opt (named "identifier" "statement_identifier")), "_semicolon"]),
  ("debugger_statement", all [.lit "debugger", "_semicolon"]),
  ("return_statement", all [.lit "return", opt "_expressions", "_semicolon"]),
  ("throw_statement", all [.lit "throw", "_expressions", "_semicolon"]),
  ("empty_statement", .lit ";"),
  ("labeled_statement", .dynamic (-1) (all [field "label" (named anyName "statement_identifier"),
    .lit ":", field "body" "statement"])),
  ("switch_body", braced (rep (any ["switch_case", "switch_default"]))),
  ("switch_case", all [.lit "case", field "value" "_expressions", .lit ":",
    field "body" (rep "statement")]),
  ("switch_default", all [.lit "default", .lit ":", field "body" (rep "statement")]),
  ("catch_clause", all [.lit "catch",
    opt (parenthesized (field "parameter" (any ["identifier", "_destructuring_pattern"]))),
    field "body" "statement_block"]),
  ("finally_clause", all [.lit "finally", field "body" "statement_block"]),
  ("parenthesized_expression", parenthesized "_expressions")]

def expressionRules : List (String × Rule) := [
  ("_expressions", any ["expression", "sequence_expression"]),
  ("expression", any ["primary_expression", "_jsx_element", "assignment_expression",
    "augmented_assignment_expression", "await_expression", "unary_expression",
    "binary_expression", "ternary_expression", "update_expression", "new_expression",
    "yield_expression"]),
  ("primary_expression", any ["subscript_expression", "member_expression",
    "parenthesized_expression", "_identifier", named "_reserved_identifier" "identifier", "this",
    "super", "number", "string", "template_string", "regex", "true", "false", "null", "object",
    "array", "function_expression", "arrow_function", "generator_function", "class",
    "meta_property", "call_expression"]),
  ("yield_expression", right (all [.lit "yield",
    any [all [.lit "*", "expression"], opt "expression"]])),
  ("object", level "object" (braced (commaSep (opt (any ["pair", "spread_element",
    "method_definition", named anyName "shorthand_property_identifier"]))))),
  ("object_pattern", level "object" (braced (commaSep (opt (any ["pair_pattern", "rest_pattern",
    "object_assignment_pattern", named anyName "shorthand_property_identifier_pattern"]))))),
  ("assignment_pattern", all [field "left" "pattern", .lit "=", field "right" "expression"]),
  ("object_assignment_pattern", all [
    field "left" (any [named (any ["_reserved_identifier", "identifier"])
      "shorthand_property_identifier_pattern", "_destructuring_pattern"]),
    .lit "=", field "right" "expression"]),
  ("array", bracketed (commaSep (opt (any ["expression", "spread_element"])))),
  ("array_pattern", bracketed (commaSep (opt (any ["pattern", "assignment_pattern"]))))]

def markupRules : List (String × Rule) := [
  ("jsx_element", all [field "open_tag" "jsx_opening_element", rep "_jsx_child",
    field "close_tag" "jsx_closing_element"]),
  ("jsx_expression", braced (opt (any ["expression", "sequence_expression", "spread_element"]))),
  ("_jsx_child", any ["jsx_text", "html_character_reference", "_jsx_element", "jsx_expression"]),
  ("jsx_opening_element", .dynamic (-1) (all [.lit "<",
    opt (all [field "name" "_jsx_element_name", rep (field "attribute" "_jsx_attribute")]),
    .lit ">"])),
  ("_jsx_identifier", any [named "jsx_identifier" "identifier", "identifier"]),
  ("nested_identifier", level "member" (all [
    field "object" (any ["identifier", named "nested_identifier" "member_expression"]), .lit ".",
    field "property" (named "identifier" "property_identifier")])),
  ("jsx_namespace_name", all ["_jsx_identifier", .lit ":", "_jsx_identifier"]),
  ("_jsx_element_name", any ["_jsx_identifier", named "nested_identifier" "member_expression",
    "jsx_namespace_name"]),
  ("jsx_closing_element", all [.lit "</", opt (field "name" "_jsx_element_name"), .lit ">"]),
  ("jsx_self_closing_element", all [.lit "<", field "name" "_jsx_element_name",
    rep (field "attribute" "_jsx_attribute"), .lit "/>"]),
  ("_jsx_attribute", any ["jsx_attribute", "jsx_expression"]),
  ("_jsx_attribute_name", any [named "_jsx_identifier" "property_identifier",
    "jsx_namespace_name"]),
  ("jsx_attribute", all ["_jsx_attribute_name", opt (all [.lit "=", "_jsx_attribute_value"])]),
  ("_jsx_string", any [
    quoted "\"" "unescaped_double_jsx_string_fragment" "html_character_reference",
    quoted "'" "unescaped_single_jsx_string_fragment" "html_character_reference"]),
  ("_jsx_attribute_value", any [named "_jsx_string" "string", "jsx_expression", "_jsx_element"]),
  ("_jsx_element", any ["jsx_element", "jsx_self_closing_element"])]

def operationRules : List (String × Rule) := [
  ("class", level "literal" (all [decorators, .lit "class", field "name" (opt "identifier"),
    opt "class_heritage", field "body" "class_body"])),
  ("class_declaration", level "declare" (all [decorators, .lit "class", field "name" "identifier",
    opt "class_heritage", field "body" "class_body", asiOpt])),
  ("class_heritage", all [.lit "extends", "expression"]),
  ("function_expression", level "literal" (all (functionHead false (opt "identifier")))),
  ("function_declaration", rightAt "declare" (all (functionHead false "identifier" ++ [asiOpt]))),
  ("generator_function", level "literal" (all (functionHead true (opt "identifier")))),
  ("generator_function_declaration",
    rightAt "declare" (all (functionHead true "identifier" ++ [asiOpt]))),
  ("arrow_function", all [opt (.lit "async"),
    any [field "parameter" (any [named "_reserved_identifier" "identifier", "identifier"]),
      "_call_signature"],
    .lit "=>", field "body" (any ["expression", "statement_block"])]),
  ("_call_signature", field "parameters" "formal_parameters"),
  ("_formal_parameter", any ["pattern", "assignment_pattern"]),
  ("optional_chain", .lit "?."),
  ("call_expression", any [
    level "call" (all [field "function" (any ["expression", "import"]),
      field "arguments" "arguments"]),
    level "template_call" (all [field "function" (any ["primary_expression", "new_expression"]),
      field "arguments" "template_string"]),
    level "member" (all [field "function" "primary_expression",
      field "optional_chain" "optional_chain", field "arguments" "arguments"])]),
  ("new_expression", rightAt "new" (all [.lit "new",
    field "constructor" (any ["primary_expression", "new_expression"]),
    field "arguments" (opt (.dynamic 1 "arguments"))])),
  ("await_expression", level "unary_void" (all [.lit "await", "expression"])),
  ("member_expression", level "member" (all [
    field "object" (any ["expression", "primary_expression", "import"]),
    any [.lit ".", field "optional_chain" "optional_chain"],
    field "property" (any ["private_property_identifier",
      .reserved 1 (named "identifier" "property_identifier")])])),
  ("subscript_expression", rightAt "member" (all [
    field "object" (any ["expression", "primary_expression"]),
    opt (field "optional_chain" "optional_chain"), bracketed (field "index" "_expressions")])),
  ("_lhs_expression", any ["member_expression", "subscript_expression", "_identifier",
    named "_reserved_identifier" "identifier", "_destructuring_pattern"]),
  ("assignment_expression", rightAt "assign" (all [
    field "left" (any ["parenthesized_expression", "_lhs_expression"]), .lit "=",
    field "right" "expression"])),
  ("_augmented_assignment_lhs", any ["member_expression", "subscript_expression",
    named "_reserved_identifier" "identifier", "identifier", "parenthesized_expression"]),
  ("augmented_assignment_expression", rightAt "assign" (all [
    field "left" "_augmented_assignment_lhs",
    field "operator" (words ["+=", "-=", "*=", "/=", "%=", "^=", "&=", "|=", ">>=", ">>>=", "<<=",
      "**=", "&&=", "||=", "??="]),
    field "right" "expression"])),
  ("_initializer", all [.lit "=", field "value" "expression"]),
  ("_destructuring_pattern", any ["object_pattern", "array_pattern"]),
  ("spread_element", all [.lit "...", "expression"]),
  ("ternary_expression", rightAt "ternary" (all [field "condition" "expression",
    shown "_ternary_qmark" "?", field "consequence" "expression", .lit ":",
    field "alternative" "expression"])),
  ("binary_expression", any (binaryOperators.map fun (o, l) => binaryForm o l)),
  ("unary_expression", leftAt "unary_void" (all [
    field "operator" (words ["!", "~", "-", "+", "typeof", "void", "delete"]),
    field "argument" "expression"])),
  ("update_expression", left (any [
    all [field "argument" "expression", field "operator" (words ["++", "--"])],
    all [field "operator" (words ["++", "--"]), field "argument" "expression"]])),
  ("sequence_expression", right (commaSep1 "expression"))]

def literalRules : List (String × Rule) := [
  ("string", any [
    quoted "\"" "unescaped_double_string_fragment" "escape_sequence",
    quoted "'" "unescaped_single_string_fragment" "escape_sequence"]),
  ("template_string", all [.lit "\x60",
    rep (any [named "_template_chars" "string_fragment", "escape_sequence",
      "template_substitution"]),
    .lit "\x60"]),
  ("template_substitution", all [.lit "$\x7b", "_expressions", .lit "\x7d"]),
  ("regex", all [.lit "/", field "pattern" "regex_pattern", "regex_close",
    opt (field "flags" "regex_flags")]),
  ("_identifier", any ["undefined", "identifier"]),
  ("meta_property", any [all [.lit "new", .lit ".", .lit "target"],
    all [.lit "import", .lit ".", .lit "meta"]]),
  ("arguments", parenthesized (commaSep (opt (any ["expression", "spread_element"]))))]

def memberRules : List (String × Rule) := [
  ("decorator", all [.lit "@", any ["identifier",
    named "decorator_member_expression" "member_expression",
    named "decorator_call_expression" "call_expression"]]),
  ("decorator_member_expression", level "member" (all [
    field "object" (any ["identifier", named "decorator_member_expression" "member_expression"]),
    .lit ".", field "property" (named "identifier" "property_identifier")])),
  ("decorator_call_expression", level "call" (all [
    field "function" (any ["identifier", named "decorator_member_expression" "member_expression"]),
    field "arguments" "arguments"])),
  ("class_body", braced (rep (any [
    all [field "member" "method_definition", opt (.lit ";")],
    all [field "member" "field_definition", "_semicolon"],
    field "member" "class_static_block", .lit ";"]))),
  ("field_definition", all [decorators, opt (any ["static get", .lit "static"]),
    field "property" "_property_name", initializerOpt]),
  ("formal_parameters", parenthesized
    (opt (all [commaSep1 "_formal_parameter", opt (.lit ",")]))),
  ("class_static_block", all [.lit "static", field "body" "statement_block", asiOpt]),
  ("pattern", .dynamic (-1) (any ["_lhs_expression", "rest_pattern"])),
  ("rest_pattern", right (all [.lit "...", "_lhs_expression"])),
  ("method_definition", all [decorators, opt (any [.lit "static", "static get"]),
    opt (.lit "async"), opt (words ["get", "set", "*"]), field "name" "_property_name",
    field "parameters" "formal_parameters", field "body" "statement_block"]),
  ("pair", all [field "key" "_property_name", .lit ":", field "value" "expression"]),
  ("pair_pattern", all [field "key" "_property_name", .lit ":",
    field "value" (any ["pattern", "assignment_pattern"])]),
  ("_property_name", .reserved 1 (any [named anyName "property_identifier",
    "private_property_identifier", "string", "number", "computed_property_name"])),
  ("computed_property_name", bracketed "expression"),
  ("_reserved_identifier", words softWords)]

def sharedRules : List (String × Rule) :=
  programRules ++ statementRules ++ expressionRules ++ markupRules ++ operationRules ++
    literalRules ++ memberRules ++ [("_semicolon", any ["_automatic_semicolon", .lit ";"])]

/-- A decorator between parentheses. -/
def decoratorParentheses : Rule :=
  parenthesized (any ["identifier", named "decorator_member_expression" "member_expression",
    named "decorator_call_expression" "call_expression"])

/-! ## Precedence -/

private def l (name : String) : Rank := .level name

private def r (name : String) : Rank := .rule name

/-- The orders that all dialects share. -/
def sharedOrders : List (List Rank) := [
  [l "member", l "template_call", l "call", r "update_expression", l "unary_void", l "binary_exp",
    l "binary_times", l "binary_plus", l "binary_shift", l "binary_compare", l "binary_relation",
    l "binary_equality", l "bitwise_and", l "bitwise_xor", l "bitwise_or", l "logical_and",
    l "logical_or", l "ternary", r "sequence_expression", r "arrow_function"],
  [l "assign", r "primary_expression"],
  [l "member", l "template_call", l "new", l "call", r "expression"],
  [l "declare", l "literal"],
  [r "primary_expression", r "statement_block", l "object"],
  [r "meta_property", r "import"],
  [r "import_statement", r "import"],
  [r "export_statement", r "primary_expression"],
  [r "lexical_declaration", r "primary_expression"]]

/-- Rules that every dialect writes in place. -/
def sharedInlined : List String := ["_expressions", "_semicolon", "_identifier",
  "_reserved_identifier", "_jsx_attribute", "_jsx_element_name", "_jsx_child", "_jsx_element",
  "_jsx_attribute_name", "_jsx_attribute_value", "_jsx_identifier", "_lhs_expression"]

def sharedSupertypes : List String := ["statement", "declaration", "expression",
  "primary_expression", "pattern"]

/-- Replaces rules by name. -/
def override (rules changes : List (String × Rule)) : List (String × Rule) :=
  rules.map fun (n, body) => (n, (changes.lookup n).getD body)

/-! ## The plain dialect -/

namespace Plain

/-- Words that are never names, except for properties. -/
def reservedWords : List String := ["break", "case", "catch", "class", "const", "continue",
  "debugger", "default", "delete", "do", "else", "export", "extends", "false", "finally", "for",
  "function", "if", "import", "in", "instanceof", "new", "null", "return", "super", "switch",
  "this", "throw", "true", "try", "typeof", "var", "void", "while", "with"]

/-- Declarations of variables that are disposed of at the end of their block. -/
def usingDeclaration : Rule :=
  all [field "kind" (any [.lit "using", all [.lit "await", .lit "using"]]),
    commaSep1 "variable_declarator", "_semicolon"]

/-- What a loop may assign to: `let` begins a declaration there and is no name. -/
def loopTarget : Rule :=
  any ["member_expression", "subscript_expression", "_identifier",
    named (words (softWords.erase "let")) "identifier", "_destructuring_pattern"]

def definition : Definition where
  rules := override (sharedRules.filter fun r => r.1 != "optional_chain") [
    ("_for_header", forHeader loopTarget),
    ("declaration", any ["function_declaration", "generator_function_declaration",
      "class_declaration", "lexical_declaration", "variable_declaration", "using_declaration"]),
    ("decorator", all [.lit "@", any ["identifier",
      named "decorator_member_expression" "member_expression",
      named "decorator_call_expression" "call_expression",
      named "decorator_parenthesized_expression" "parenthesized_expression"]])] ++
    [("using_declaration", usingDeclaration),
      ("decorator_parenthesized_expression", decoratorParentheses)]
  tokens := tokens ++ [.word "optional_chain" "?."]
  contextual := contextual
  extras := ["comment", "html_comment"]
  blanks := blanks
  word := "identifier"
  reserved := [reservedWords, []]
  inlined := ["_call_signature", "_formal_parameter"] ++ sharedInlined
  supertypes := sharedSupertypes
  orders := sharedOrders

end Plain

end SourceAtlas.Script
