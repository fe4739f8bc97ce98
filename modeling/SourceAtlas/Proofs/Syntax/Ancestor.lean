import Mathlib.Data.List.Pairwise
import SourceAtlas.Proofs.Syntax.Tree

/-!
# Ancestors

Where no node of a tree is repeated, the nodes above a node stand in one line, and the nodes of a
subtree stand together in the walk.

Results:
* `nodes_contained`: the nodes of a subtree stand together among those of the tree.
* `mem_nodes_or_mem_descendants`: of two nodes above a third, one is above the other.
* `eq_of_mem_nodes_of_children`, `eq_of_child_mem_descendants`: the children of a node have no
  nodes in common, and only the node itself is above them.
-/

namespace SourceAtlas.Syntax.Node

/-- The nodes of a subtree stand together among those of the tree. -/
theorem nodes_contained {root t : Node} (h : t ∈ root.nodes) : t.nodes <:+: root.nodes := by
  induction root using childInduction with
  | step root ih =>
    rcases mem_nodes_iff.mp h with rfl | h
    · exact List.infix_refl _
    · obtain ⟨c, hc, ht⟩ := mem_descendants_iff.mp h
      obtain ⟨before, after, hchildren⟩ := List.append_of_mem hc
      have hin : c.nodes <:+: root.descendants := by
        rw [descendants, nodesOfAll_eq, hchildren, List.flatMap_append, List.flatMap_cons]
        exact ⟨_, _, List.append_assoc _ _ _⟩
      rw [nodes_eq root]
      exact (ih c hc ht).trans (hin.trans (List.suffix_cons _ _).isInfix)

theorem nodup_nodes {root t : Node} (h : root.nodes.Nodup) (ht : t ∈ root.nodes) :
    t.nodes.Nodup :=
  h.sublist (nodes_contained ht).sublist

section Distinct

variable {p a b n : Node} (h : p.nodes.Nodup)

include h

/-- The children of a node have no nodes in common. -/
theorem eq_of_mem_nodes_of_children (ha : a ∈ p.children) (hb : b ∈ p.children)
    (hna : n ∈ a.nodes) (hnb : n ∈ b.nodes) : a = b := by
  rw [nodes_eq, List.nodup_cons, descendants, nodesOfAll_eq, List.nodup_flatMap] at h
  have hsymm : Std.Symm (Function.onFun List.Disjoint nodes) := ⟨fun _ _ => List.disjoint_symm⟩
  by_contra hab
  exact h.2.2.forall ha hb hab hna hnb

/-- Of two nodes above a third, or that node itself, one is above the other. -/
theorem mem_nodes_or_mem_descendants (ha : a ∈ p.nodes) (hb : b ∈ p.nodes)
    (hna : n ∈ a.nodes) (hnb : n ∈ b.nodes) : a ∈ b.nodes ∨ b ∈ a.descendants := by
  induction p using childInduction with
  | step p ih =>
    rcases mem_nodes_iff.mp hb with rfl | hb
    · exact Or.inl ha
    · rcases mem_nodes_iff.mp ha with rfl | ha
      · exact Or.inr hb
      · obtain ⟨c, hc, ha⟩ := mem_descendants_iff.mp ha
        obtain ⟨d, hd, hb⟩ := mem_descendants_iff.mp hb
        obtain rfl := eq_of_mem_nodes_of_children h hc hd (nodes_subset ha hna)
          (nodes_subset hb hnb)
        have hc' := mem_nodes_of_mem_children hc
        exact ih c hc (nodup_nodes h hc') ha hb

/-- Above a child of a node there is, in the tree of that node, only the node itself. -/
theorem eq_of_child_mem_descendants (hb : b ∈ p.children) (ha : a ∈ p.nodes)
    (hba : b ∈ a.descendants) : a = p := by
  rcases mem_nodes_iff.mp ha with rfl | ha
  · rfl
  · obtain ⟨c, hc, ha⟩ := mem_descendants_iff.mp ha
    obtain rfl := eq_of_mem_nodes_of_children h hb hc b.self_mem_nodes
      (nodes_subset ha (mem_nodes_of_mem_descendants hba))
    exact absurd (descendants_subset ha hba) (not_mem_descendants_self b)

end Distinct

end SourceAtlas.Syntax.Node
