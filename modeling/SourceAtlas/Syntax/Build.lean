import SourceAtlas.Grammar.Parse
import SourceAtlas.Syntax.Node

/-!
# From parse trees to syntax trees

A parse tree shows every step of a grammar. The syntax tree leaves out what only holds a grammar
together: the children of a hidden node take its place, and a field of a hidden node goes to the
first of them. Names given in a production rename its steps.

With the grammars this stands for `parse_source`.
-/

namespace SourceAtlas.Syntax

open Grammar

/-- The bytes and the rows before each character of a text. -/
structure Places where
  offsets : Array Nat
  rows : Array Nat

/-- The number of bytes that encode a code point. -/
def encodedSize (c : Nat) : Nat :=
  if c < 0x80 then 1 else if c < 0x800 then 2 else if c < 0x10000 then 3 else 4

/-- Adds the place behind one more character. -/
def Places.push (p : Places) (c : Nat) : Places :=
  ⟨p.offsets.push (p.offsets.back! + encodedSize c),
    p.rows.push (p.rows.back! + if c == 0xA then 1 else 0)⟩

def Places.of (text : Array Nat) : Places := text.foldl .push ⟨#[0], #[0]⟩

/-- Puts a field on the first node. -/
def mark (field : Option String) : List Node → List Node
  | [] => []
  | .mk l cs :: rest => .mk { l with field := field } cs :: rest

/-- How a step of a production shows in the tree: the name and field that it was given. -/
structure Role where
  display : Option Display
  field : Option String

namespace Build

variable (t : Table) (p : Places)

/-- The label of a visible node, or `none` for a hidden one. -/
def labelOf (symbol start stop : Nat) (role : Role) : Option Label :=
  let label (name : String) (named : Bool) : Label :=
    ⟨name, named, p.offsets.getD start 0, p.offsets.getD stop 0, p.rows.getD start 0, role.field⟩
  match role.display with
  | some a => some (label a.name a.named)
  | none =>
    let info := t.grammar.symbols.getD symbol default
    if info.visible then some (label info.name info.named) else none

mutual

/-- The syntax nodes of a parse tree under a role, in front of those that come after it. -/
def nodes (tree : ParseTree) (role : Role) (after : List Node) : List Node :=
  match tree with
  | .token symbol start stop extra =>
    match labelOf t p symbol start stop (if extra then ⟨none, none⟩ else role) with
    | some l => .mk l [] :: after
    | none => after
  | .node symbol production start stop _ children =>
    let shape := t.shapes.getD production default
    match labelOf t p symbol start stop role with
    | some l => .mk l (steps shape children 0 []) :: after
    | none =>
      if role.field.isSome then mark role.field (steps shape children 0 []) ++ after
      else steps shape children 0 after

/-- The syntax nodes of children, the next of which is the step `i` of a production; extras are
no steps. -/
def steps (shape : Shape) (children : List ParseTree) (i : Nat) (after : List Node) : List Node :=
  match children with
  | [] => after
  | c :: cs =>
    let role : Role := ⟨shape.displays.getD i none, shape.fields.getD i none⟩
    nodes c role (steps shape cs (if c.extra then i else i + 1) after)

end

end Build

/-- The syntax tree of a parse tree over a text. -/
def Node.ofParseTree (l : Language) (text : Array Nat) (tree : ParseTree) : Node :=
  match Build.nodes l.table (.of text) tree ⟨none, none⟩ [] with
  | n :: _ => n
  | [] => .mk default []

end SourceAtlas.Syntax
