import Mathlib.Logic.Function.Iterate
import SourceAtlas.Proofs.Syntax.Tree
import SourceAtlas.Reference.Collect

/-!
# The walk of a syntax tree

A walk keeps the nodes that it has yet to come to on a stack. It gets through a whole tree before it
comes to what lies below the tree on the stack, so it comes to the nodes of a tree in the order in
which they are told one by one: each node before those below it, and those below one child before
those below the next.

Results:
* `iterate_round`: the walk gets through the tree on top of the stack, one node a round.
* `referencesOf_eq_foldl`: the references of a tree are collected from the events of its nodes.
-/

namespace SourceAtlas

open Syntax

mutual

/-- The events of a tree: those of its root, and then those below it. -/
def events (source : Array UInt8) (n : Node) : List Event :=
  match n with
  | .mk label children =>
    eventsOf source (.mk label children) ++ eventsOfAll source children

/-- The events of trees, one after the other. -/
def eventsOfAll (source : Array UInt8) (ns : List Node) : List Event :=
  match ns with
  | [] => []
  | n :: rest => events source n ++ eventsOfAll source rest

end

theorem events_eq_append (source : Array UInt8) (n : Node) :
    events source n = eventsOf source n ++ eventsOfAll source n.children := by
  cases n
  rfl

theorem eventsOfAll_eq (source : Array UInt8) (ns : List Node) :
    eventsOfAll source ns = ns.flatMap (events source) := by
  induction ns with
  | nil => rfl
  | cons n ns ih => rw [eventsOfAll, ih, List.flatMap_cons]

namespace Visit

variable {source : Array UInt8}

theorem round_cons (n : Node) (ahead : List Node) (c : Collection) :
    round source ⟨n :: ahead, c⟩ =
      ⟨n.children ++ ahead, (eventsOf source n).foldl (Collection.record source) c⟩ := rfl

/-- If the walk gets through each of some trees, it gets through them one after the other. -/
theorem iterate_round_append {ns : List Node}
    (h : ∀ n ∈ ns, ∀ ahead c, (round source)^[n.size] ⟨n :: ahead, c⟩ =
      ⟨ahead, (events source n).foldl (Collection.record source) c⟩)
    (ahead : List Node) (c : Collection) :
    (round source)^[Node.sizeOfAll ns] ⟨ns ++ ahead, c⟩ =
      ⟨ahead, (eventsOfAll source ns).foldl (Collection.record source) c⟩ := by
  induction ns generalizing c with
  | nil => rfl
  | cons n ns ih =>
    rw [List.forall_mem_cons] at h
    rw [Node.sizeOfAll, Nat.add_comm, Function.iterate_add_apply, List.cons_append, h.1, ih h.2,
      eventsOfAll, List.foldl_append]

/-- The walk gets through the tree on top of the stack, one node a round, and has then collected
    its events. -/
theorem iterate_round (n : Node) (ahead : List Node) (c : Collection) :
    (round source)^[n.size] ⟨n :: ahead, c⟩ =
      ⟨ahead, (events source n).foldl (Collection.record source) c⟩ := by
  induction n using Node.childInduction generalizing ahead c with
  | step n ih =>
    have hsize : n.size = Node.sizeOfAll n.children + 1 := by
      cases n
      rfl
    rw [hsize, Function.iterate_add_apply, Function.iterate_one, round_cons,
      iterate_round_append ih, events_eq_append, List.foldl_append]

/-- Rounds do not change what the walk ends with. -/
theorem finish_iterate (k : Nat) (v : Visit) :
    finish source ((round source)^[k] v) = finish source v := by
  induction k generalizing v with
  | zero => rfl
  | succ k ih =>
    rw [Function.iterate_succ_apply, ih]
    conv_rhs => unfold finish
    split
    · rename_i hdone
      have hround : v.round source = v := by simp only [round, hdone]
      rw [hround, finish, if_pos hdone]
    · rfl

end Visit

/-- The references of a tree are collected from the events of its nodes, those of a node before
    those of the nodes below it. -/
theorem referencesOf_eq_foldl (source : Array UInt8) (root : Node) :
    referencesOf source root =
      ((events source root).foldl (Collection.record source) {}).found.reverse := by
  rw [referencesOf, ← Visit.finish_iterate root.size, Visit.iterate_round, Visit.finish,
    if_pos rfl]

end SourceAtlas
