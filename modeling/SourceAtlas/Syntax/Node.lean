import SourceAtlas.Text.Utf8

/-!
# Syntax trees

The trees that the references of a file are read from. A node has a kind, a place in the bytes of
the text, the row on which it starts and, under its parent, possibly a field.

Stands for the nodes of a parsed tree, with `_text`, `_line` and `_key`.
-/

namespace SourceAtlas.Syntax

/-- What a node says about itself. Rows count from zero. -/
structure Label where
  kind : String
  named : Bool
  start : Nat
  stop : Nat
  row : Nat
  field : Option String
  deriving BEq, DecidableEq, Repr, Inhabited

/-- A syntax tree. -/
inductive Node where
  | mk (label : Label) (children : List Node)
  deriving Inhabited

namespace Node

def label : Node → Label
  | mk l _ => l

def children : Node → List Node
  | mk _ cs => cs

def kind (n : Node) : String := n.label.kind

def line (n : Node) : Nat := n.label.row + 1

def namedChildren (n : Node) : List Node := n.children.filter (·.label.named)

/-- The first child under a field. -/
def child? (n : Node) (field : String) : Option Node :=
  n.children.find? fun c => c.label.field == some field

/-- The place and kind that tell nodes apart. -/
def key (n : Node) : Nat × Nat × String := (n.label.start, n.label.stop, n.label.kind)

/-- The text of a node in the bytes it was read from, cut to what is there. -/
def text (source : Array UInt8) (n : Node) : String :=
  String.ofList (Text.Utf8.decode (source.extract n.label.start n.label.stop).toList)

mutual

/-- How many nodes a tree has. -/
def size : Node → Nat
  | mk _ cs => sizeOfAll cs + 1

/-- How many nodes trees have together. -/
def sizeOfAll : List Node → Nat
  | [] => 0
  | n :: ns => n.size + sizeOfAll ns

end

theorem sizeOfAll_append (ms ns : List Node) :
    sizeOfAll (ms ++ ns) = sizeOfAll ms + sizeOfAll ns := by
  induction ms with
  | nil => exact (Nat.zero_add _).symm
  | cons m ms ih => rw [List.cons_append, sizeOfAll, sizeOfAll, ih, Nat.add_assoc]

end Node

end SourceAtlas.Syntax
