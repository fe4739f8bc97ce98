import SourceAtlas.Yaml.Node

/-!
# Reading YAML

YAML texts as values. A text holds at most one document. The values of collections are made level
by level, so of several faults the one nearest to the root shows, and of those the first. How deep
collections may be nested is up to who reads.

With the modules below it this stands for the safe loader that `_load_yaml` calls.
-/

namespace SourceAtlas.Yaml

open Number

/-! ## Merging -/

/-- A node under another tag. -/
def Node.retag (tag : String) : Node → Node
  | .scalar _ text => .scalar tag text
  | .sequence _ items => .sequence tag items
  | .mapping _ es => .mapping tag es

/-- The key of an entry; that of a default is a text. -/
def ownKey (k : Node) : Node := if k.tag == Tag.default then k.retag Tag.text else k

mutual

/-- The entries of a mapping, those that it merges in front of its own. -/
def mergedEntries : List (Node × Node) → Except YamlError (List (Node × Node))
  | es => do
    let (merged, own) ← splitEntries es
    return merged ++ own

/-- The entries that a mapping merges, and its own. -/
def splitEntries : List (Node × Node) →
    Except YamlError (List (Node × Node) × List (Node × Node))
  | [] => .ok ([], [])
  | (k, v) :: es => do
    if k.tag == Tag.merge then
      let here ← match v with
        | .mapping _ es => mergedEntries es
        | .sequence _ items => do pure (← mergedItems items).reverse.flatten
        | .scalar _ _ => throw .malformed
      let (merged, own) ← splitEntries es
      return (here ++ merged, own)
    let (merged, own) ← splitEntries es
    return (merged, (ownKey k, v) :: own)

/-- The entries of each of several mappings. -/
def mergedItems : List Node → Except YamlError (List (List (Node × Node)))
  | [] => .ok []
  | .mapping _ es :: items => do return (← mergedEntries es) :: (← mergedItems items)
  | _ :: _ => .error .malformed

end

/-! ## Keys -/

/-- The integer that a float equals, if it is one. -/
def exactInt? (x : Float) : Option Int :=
  if x.isNaN || x.isInf || x.floor != x then none else some (integerPart x)

/-- The integer that a number equals, if it is one. -/
def wholeNumber? : Value → Option Int
  | .int n => some n
  | .bool b => some (if b then 1 else 0)
  | .float x => exactInt? x
  | _ => none

/-- Whether two keys are the same. Numbers are by their values. -/
def sameKey : Value → Value → Bool
  | .null, .null => true
  | .text a, .text b => a == b
  | .bytes a, .bytes b => a == b
  | .date a, .date b => a == b
  | .moment a, .moment b => a == b
  | .float a, .float b => a == b
  | a, b =>
    match wholeNumber? a, wholeNumber? b with
    | some m, some n => m == n
    | _, _ => false

/-- Puts a value under a key, in place of the one that is there. -/
def putEntry (k v : Value) : List (Value × Value) → List (Value × Value)
  | [] => [(k, v)]
  | (key, old) :: es => if sameKey key k then (key, v) :: es else (key, old) :: putEntry k v es

/-! ## Values of nodes -/

/-- A fault and how deep it lies. -/
abbrev Fault := Nat × YamlError

/-- The fault that shows of two, the first of which comes first. -/
def shownFault (a b : Fault) : Fault := if b.1 < a.1 then b else a

/-- Two results, or the fault that shows. -/
def both {α β : Type} : Except Fault α → Except Fault β → Except Fault (α × β)
  | .ok a, .ok b => .ok (a, b)
  | .error a, .error b => .error (shownFault a b)
  | .error a, .ok _ => .error a
  | .ok _, .error b => .error b

/-- All results, or the fault that shows. -/
def all {α : Type} : List (Except Fault α) → Except Fault (List α)
  | [] => .ok []
  | r :: rs => (both r (all rs)).map fun (a, as) => a :: as

/-- The text of a node. A mapping has the text of its default. -/
def textOf? : Nat → Node → Option (List Char)
  | _, .scalar _ text => some text
  | fuel + 1, .mapping _ es =>
    (es.find? fun e => e.1.tag == Tag.default).bind fun e => textOf? fuel e.2
  | _, _ => none

/-- The value of a node under a tag of scalars. -/
def scalarValue (tag : String) (n : Node) (fuel : Nat) : Except YamlError Value :=
  match textOf? fuel n with
  | none => .error .malformed
  | some text =>
    if tag == Tag.text then .ok (.text (String.ofList text))
    else if tag == Tag.null then .ok .null
    else if tag == Tag.bool then boolValue text
    else if tag == Tag.int then intValue text
    else if tag == Tag.float then floatValue text
    else if tag == Tag.binary then binaryValue text
    else if tag == Tag.timestamp then
      match n with
      | .scalar _ _ => timestampValue text
      | _ => .error .wrongShape
    else .error .malformed

def isCollection (tag : String) : Bool :=
  [Tag.list, Tag.map, Tag.set, Tag.pairs, Tag.orderedMap].contains tag

/-- The values of an entry. -/
def entryValue (f : Node → Except Fault Value) (e : Node × Node) : Except Fault (Value × Value) :=
  both (f e.1) (f e.2)

/-- The values of the members of a mapping, whose parts lie at a level. No collection is a key. -/
def memberValues (f : Node → Except Fault Value) (level : Nat) (es : List (Node × Node)) :
    Except Fault (List (Value × Value)) :=
  match mergedEntries es with
  | .error e => .error (level, e)
  | .ok es =>
    let member (e : Node × Node) : Except Fault (Value × Value) :=
      if isCollection e.1.tag then .error (level, .malformed) else entryValue f e
    (all (es.map member)).map fun es => es.foldl (fun out e => putEntry e.1 e.2 out) []

/-- The value of a pair, which a mapping with a single member writes. -/
def pairValue (f : Node → Except Fault Value) (level : Nat) : Node → Except Fault Value
  | .mapping _ [e] => (entryValue f e).map fun (k, v) => .pair k v
  | _ => .error (level, .malformed)

/-- The value of a node at a level. What a collection holds lies one level deeper. -/
def build : Nat → Nat → Node → Except Fault Value
  | 0, level, _ => .error (level, .malformed)
  | fuel + 1, level, n =>
    let inner := level + 1
    let refused : Except Fault Value := .error (inner, .malformed)
    if n.tag == Tag.list then
      match n with
      | .sequence _ items => (all (items.map (build fuel inner))).map .list
      | _ => refused
    else if n.tag == Tag.map then
      match n with
      | .mapping _ es => (memberValues (build fuel inner) inner es).map .map
      | _ => refused
    else if n.tag == Tag.set then
      match n with
      | .mapping _ es =>
        (memberValues (build fuel inner) inner es).map fun es => .set (es.map (·.1))
      | _ => refused
    else if n.tag == Tag.pairs || n.tag == Tag.orderedMap then
      match n with
      | .sequence _ items => (all (items.map (pairValue (build fuel inner) inner))).map .list
      | _ => refused
    else (scalarValue n.tag n fuel).mapError fun e => (level, e)

/-- The value of a text; an empty one has the value null. -/
def read (depth : Nat) (cs : List Char) : Except YamlError Value :=
  if cs.all isAllowed then
    match nodeOf? depth cs with
    | .error e => .error e
    | .ok none => .ok .null
    | .ok (some n) => (build (cs.length + 2) 0 n).mapError (·.2)
  else .error .malformed

end SourceAtlas.Yaml
