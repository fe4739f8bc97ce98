import Mathlib.Data.List.Pairwise
import SourceAtlas.Proofs.Syntax.Pattern

/-!
# Trees laid out in a text

The nodes of a tree that is read from a text have places in it: children lie within their parent,
in order and without overlap, and what starts further on starts on no earlier row.

Results:
* `LaidOut.pairwise_nodes`: the walk goes down or on, never back: what comes after a node lies below
  it or starts behind its end.
* `LaidOut.pairwise_bindings`: the nodes that a pattern binds stand in the order of the text.
-/

namespace SourceAtlas.Syntax.Node

/-- The first node ends before the second starts. -/
def Before (a b : Node) : Prop := a.label.stop ≤ b.label.start

instance (a b : Node) : Decidable (Before a b) := inferInstanceAs (Decidable (_ ≤ _))

/-- The nodes of a tree have the places that they have in a text. -/
structure LaidOut (root : Node) : Prop where
  spans : ∀ a ∈ root.nodes, a.label.start ≤ a.label.stop
  within : ∀ a ∈ root.nodes, ∀ c ∈ a.children,
    a.label.start ≤ c.label.start ∧ c.label.stop ≤ a.label.stop
  siblings : ∀ a ∈ root.nodes, a.children.Pairwise Before
  rows : ∀ a ∈ root.nodes, ∀ b ∈ root.nodes, a.label.start ≤ b.label.start →
    a.label.row ≤ b.label.row

namespace LaidOut

variable {root a b m n : Node}

theorem of_mem (h : root.LaidOut) (ha : a ∈ root.nodes) : a.LaidOut where
  spans b hb := h.spans b (nodes_subset ha hb)
  within b hb := h.within b (nodes_subset ha hb)
  siblings b hb := h.siblings b (nodes_subset ha hb)
  rows b hb c hc := h.rows b (nodes_subset ha hb) c (nodes_subset ha hc)

theorem of_mem_children (h : root.LaidOut) (ha : a ∈ root.children) : a.LaidOut :=
  h.of_mem (mem_nodes_of_mem_children ha)

/-- All nodes of a tree lie within its root. -/
theorem within_nodes (h : root.LaidOut) (ha : a ∈ root.nodes) :
    root.label.start ≤ a.label.start ∧ a.label.stop ≤ root.label.stop := by
  induction root using childInduction with
  | step root ih =>
    rcases mem_nodes_iff.mp ha with rfl | ha
    · exact ⟨Nat.le_refl _, Nat.le_refl _⟩
    · obtain ⟨c, hc, ha⟩ := mem_descendants_iff.mp ha
      obtain ⟨hstart, hstop⟩ := ih c hc (h.of_mem_children hc) ha
      obtain ⟨hstart', hstop'⟩ := h.within root root.self_mem_nodes c hc
      exact ⟨Nat.le_trans hstart' hstart, Nat.le_trans hstop hstop'⟩

/-- What stands in trees one before the other stands so itself. -/
theorem before_of_before (ha : a.LaidOut) (hb : b.LaidOut) (hab : Before a b) (hm : m ∈ a.nodes)
    (hn : n ∈ b.nodes) : Before m n :=
  Nat.le_trans (ha.within_nodes hm).2 (Nat.le_trans hab (hb.within_nodes hn).1)

/-! ## Lists of nodes in order -/

/-- Nodes taken from trees in order are in order if those of one tree are. -/
theorem pairwise_flatMap {ts : List Node} (hts : ∀ t ∈ ts, t.LaidOut) (horder : ts.Pairwise Before)
    {f : Node → List Node} (hf : ∀ t ∈ ts, f t ⊆ t.nodes)
    (heach : ∀ t ∈ ts, (f t).Pairwise Before) : (ts.flatMap f).Pairwise Before := by
  rw [List.pairwise_flatMap]
  refine ⟨heach, horder.imp_of_mem fun {t u} ht hu htu m hm n hn => ?_⟩
  exact (hts t ht).before_of_before (hts u hu) htu (hf t ht hm) (hf u hu hn)

/-- The walk goes down or on, never back. -/
theorem pairwise_nodes (h : root.LaidOut) :
    root.nodes.Pairwise fun a b => b ∈ a.descendants ∨ Before a b := by
  induction root using childInduction with
  | step root ih =>
    rw [nodes_eq, List.pairwise_cons]
    refine ⟨fun b hb => Or.inl hb, ?_⟩
    rw [descendants, nodesOfAll_eq, List.pairwise_flatMap]
    refine ⟨fun c hc => ih c hc (h.of_mem_children hc), ?_⟩
    refine (h.siblings root root.self_mem_nodes).imp_of_mem fun {c d} hc hd hcd a ha b hb => ?_
    exact Or.inr ((h.of_mem_children hc).before_of_before (h.of_mem_children hd) hcd ha hb)

theorem pairwise_namedChildren (h : root.LaidOut) : root.namedChildren.Pairwise Before :=
  (h.siblings root root.self_mem_nodes).sublist List.filter_sublist

theorem of_mem_namedChildren (h : root.LaidOut) (ha : a ∈ root.namedChildren) : a.LaidOut :=
  h.of_mem_children (List.mem_of_mem_filter ha)

theorem of_child? {field : String} (h : root.LaidOut) (ha : root.child? field = some a) :
    a.LaidOut :=
  h.of_mem_children (List.mem_of_find?_eq_some ha)

/-! ## Patterns -/

/-- The nodes that a pattern binds stand in the order of the text. -/
theorem pairwise_bindings (h : root.LaidOut) : root.bindings.Pairwise Before := by
  induction root using childInduction with
  | step root ih =>
    rw [bindings_eq]
    cases patternRole root.kind with
    | binds => exact List.pairwise_singleton _ _
    | passes field =>
      show (((root.child? field).map bindings).getD []).Pairwise Before
      cases hc : root.child? field with
      | none => exact .nil
      | some c => exact ih c (List.mem_of_find?_eq_some hc) (h.of_child? hc)
    | groups =>
      refine pairwise_flatMap (fun c hc => h.of_mem_namedChildren hc) h.pairwise_namedChildren
        (fun c _ => bindings_subset c) fun c hc => ?_
      exact ih c (List.mem_of_mem_filter hc) (h.of_mem_namedChildren hc)

theorem pairwise_boundUnder (h : root.LaidOut) (field : String) :
    (root.boundUnder field).Pairwise Before := by
  unfold boundUnder
  cases hc : root.child? field with
  | none => exact .nil
  | some c => exact (h.of_child? hc).pairwise_bindings

end LaidOut

end SourceAtlas.Syntax.Node
