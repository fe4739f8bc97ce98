import SourceAtlas.Syntax.Node

/-!
# Names bound by patterns

The names that a declaration's pattern binds, in the order of the text. A default value and the
key of a pair bind nothing.

Models `_binding_names` (`bindings`) and `_parameter_names` (`parameters`). The stack of the first
is that of `Gathering`, whose run gives the same names.
-/

namespace SourceAtlas.Syntax.Node

/-- What a node does in a pattern. -/
inductive PatternRole where
  | binds
  | passes (field : String)
  | groups
  deriving DecidableEq

def patternRole (kind : String) : PatternRole :=
  if kind == "identifier" || kind == "shorthand_property_identifier_pattern" then .binds
  else if kind == "assignment_pattern" || kind == "object_assignment_pattern" then .passes "left"
  else if kind == "pair_pattern" then .passes "value"
  else .groups

mutual

/-- The nodes that a pattern binds (`_binding_names`). -/
def bindings (n : Node) : List Node :=
  match n with
  | .mk label children =>
    match patternRole label.kind with
    | .binds => [.mk label children]
    | .passes field => bindingsUnder field children
    | .groups => bindingsOfNamed children

/-- The nodes bound by the first child under a field. -/
def bindingsUnder (field : String) (children : List Node) : List Node :=
  match children with
  | [] => []
  | c :: cs => if c.label.field == some field then bindings c else bindingsUnder field cs

/-- The nodes bound by the named children. -/
def bindingsOfNamed (children : List Node) : List Node :=
  match children with
  | [] => []
  | c :: cs => (if c.label.named then bindings c else []) ++ bindingsOfNamed cs

end

/-- The nodes bound by what stands under a field, if anything does. -/
def boundUnder (n : Node) (field : String) : List Node :=
  ((n.child? field).map bindings).getD []

/-- The nodes bound by one parameter of a list: a typed parameter wraps its pattern. -/
def parameterBindings (n : Node) : List Node :=
  if n.kind == "required_parameter" || n.kind == "optional_parameter" then n.boundUnder "pattern"
  else n.bindings

/-- The nodes bound by the parameters of a function. -/
def parameters (n : Node) : List Node :=
  match n.child? "parameters" with
  | some list => list.namedChildren.flatMap parameterBindings
  | none => []

end SourceAtlas.Syntax.Node
