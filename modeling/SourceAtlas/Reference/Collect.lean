import Std.Data.HashSet
import SourceAtlas.Reference.Claim

/-!
# Collecting references

The references of a syntax tree, in the order of a walk that comes to a node before its children. A
node is claimed at most once: later claims on it are passed over, and an identifier that was
claimed is no usage.

Models `_walk` and `_ReferenceCollector` with its `_add`, `_bind`, `_mark` and `visit_identifier`:
`Visit` holds the stack of `_walk`, and `Collection` what the collector has gathered.
-/

namespace SourceAtlas

open Syntax

/-- What the walk comes upon. -/
inductive Event where
  | claim (c : Claim)
  | mention (n : Node)

/-- The events of a node itself. -/
def eventsOf (source : Array UInt8) (n : Node) : List Event :=
  if NodeClass.of n.kind = .identifier then [.mention n]
  else (claimsOf source n).map .claim

/-- The nodes claimed so far and the references found, last first. -/
structure Collection where
  claimed : Std.HashSet (Nat × Nat × String) := {}
  found : List Reference := []

namespace Collection

/-- Adds the reference of a node (`_add`); a node without text is none. -/
def add (source : Array UInt8) (c : Collection) (n : Node) (kind : RefKind)
    (from? : Option String) : Collection :=
  let name := n.text source
  if name == "" then c else { c with found := ⟨name, kind, n.line, from?⟩ :: c.found }

/-- Takes in an event (`_bind`, `_mark` and `visit_identifier`). -/
def record (source : Array UInt8) (c : Collection) : Event → Collection
  | .claim ⟨n, binding⟩ =>
    if c.claimed.contains n.key then c
    else
      let c := { c with claimed := c.claimed.insert n.key }
      match binding with
      | some (kind, from?) => c.add source n kind from?
      | none => c
  | .mention n => if c.claimed.contains n.key then c else c.add source n .usage none

end Collection

/-! ## The walk -/

/-- A walk under way: the nodes that it has yet to come to, the next one first, and what it has
collected. -/
structure Visit where
  ahead : List Node
  collected : Collection

namespace Visit

/-- Comes to the next node. Its children come before all other nodes, the first of them next. -/
def round (source : Array UInt8) (v : Visit) : Visit :=
  match v.ahead with
  | [] => v
  | n :: ahead =>
    ⟨n.children ++ ahead, (eventsOf source n).foldl (Collection.record source) v.collected⟩

/-- How many nodes there are in the trees that are ahead. -/
def weight (v : Visit) : Nat := Node.sizeOfAll v.ahead

/-- What a node puts ahead is one node less than its tree has. -/
theorem weight_round_lt (source : Array UInt8) {v : Visit} (h : v.ahead ≠ []) :
    (v.round source).weight < v.weight := by
  obtain ⟨ahead, collected⟩ := v
  cases ahead with
  | nil => exact absurd rfl h
  | cons n ahead =>
    obtain ⟨label, children⟩ := n
    simp only [round, weight, Node.children, Node.sizeOfAll, Node.size, Node.sizeOfAll_append]
    omega

/-- Comes to nodes until none is ahead, and answers what it has collected. -/
def finish (source : Array UInt8) (v : Visit) : Collection :=
  if v.ahead = [] then v.collected else finish source (v.round source)
termination_by v.weight
decreasing_by exact weight_round_lt source ‹_›

end Visit

/-- The references of a syntax tree over the bytes of its text. -/
def referencesOf (source : Array UInt8) (root : Node) : List Reference :=
  (Visit.finish source ⟨[root], {}⟩).found.reverse

end SourceAtlas
