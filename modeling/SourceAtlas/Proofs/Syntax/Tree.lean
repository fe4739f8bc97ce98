import Mathlib.Data.List.Nodup
import SourceAtlas.Reference.Pattern

/-!
# The nodes of a tree

All nodes of a tree in the order of a walk that visits a node before its children.

Results:
* `pairwise_nodes`: where no node is repeated, the walk comes to no node after one that lies
  below it.
* `mem_descendants_of_boundUnder`, `mem_descendants_of_parameters`: patterns bind nodes below the
  one that they stand under.
-/

namespace SourceAtlas.Syntax.Node

mutual

/-- The nodes of a tree, each before its children. -/
def nodes : Node → List Node
  | .mk label children => .mk label children :: nodesOfAll children

/-- The nodes of trees, one after the other. -/
def nodesOfAll : List Node → List Node
  | [] => []
  | n :: ns => nodes n ++ nodesOfAll ns

end

/-- The nodes below a node. -/
def descendants (n : Node) : List Node := nodesOfAll n.children

/-! ## Below a node -/

theorem nodes_eq (n : Node) : n.nodes = n :: n.descendants := by
  cases n
  rfl

theorem nodesOfAll_eq (ns : List Node) : nodesOfAll ns = ns.flatMap nodes := by
  induction ns with
  | nil => rfl
  | cons n ns ih => rw [nodesOfAll, ih, List.flatMap_cons]

theorem self_mem_nodes (n : Node) : n ∈ n.nodes := by
  rw [nodes_eq]
  exact List.mem_cons_self

theorem mem_descendants_iff {n b : Node} : b ∈ n.descendants ↔ ∃ c ∈ n.children, b ∈ c.nodes := by
  rw [descendants, nodesOfAll_eq, List.mem_flatMap]

theorem mem_nodes_iff {n b : Node} : b ∈ n.nodes ↔ b = n ∨ b ∈ n.descendants := by
  rw [nodes_eq, List.mem_cons]

theorem mem_nodes_of_mem_descendants {n b : Node} (h : b ∈ n.descendants) : b ∈ n.nodes :=
  mem_nodes_iff.mpr (Or.inr h)

theorem mem_descendants_of_mem_children {n c : Node} (h : c ∈ n.children) : c ∈ n.descendants :=
  mem_descendants_iff.mpr ⟨c, h, c.self_mem_nodes⟩

theorem mem_nodes_of_mem_children {n c : Node} (h : c ∈ n.children) : c ∈ n.nodes :=
  mem_nodes_of_mem_descendants (mem_descendants_of_mem_children h)

theorem sizeOf_lt_of_mem_children {n c : Node} (h : c ∈ n.children) : sizeOf c < sizeOf n := by
  cases n with
  | mk label children =>
    have := List.sizeOf_lt_of_mem (show c ∈ children from h)
    simp only [mk.sizeOf_spec]
    omega

/-- What holds of a node if it holds of its children holds of all nodes. -/
@[elab_as_elim]
theorem childInduction {P : Node → Prop} (step : ∀ n, (∀ c ∈ n.children, P c) → P n) (n : Node) :
    P n :=
  step n fun c hc =>
    have := sizeOf_lt_of_mem_children hc
    childInduction step c
termination_by sizeOf n

theorem sizeOf_lt_of_mem_descendants {n b : Node} (h : b ∈ n.descendants) :
    sizeOf b < sizeOf n := by
  induction n using childInduction with
  | step n ih =>
    obtain ⟨c, hc, hb⟩ := mem_descendants_iff.mp h
    have hlt := sizeOf_lt_of_mem_children hc
    rcases mem_nodes_iff.mp hb with rfl | hb
    · exact hlt
    · exact Nat.lt_trans (ih c hc hb) hlt

theorem not_mem_descendants_self (n : Node) : n ∉ n.descendants := fun h =>
  Nat.lt_irrefl _ (sizeOf_lt_of_mem_descendants h)

/-- What lies below a node of a tree lies below the root of the tree. -/
theorem descendants_subset {n c : Node} (h : c ∈ n.nodes) : c.descendants ⊆ n.descendants := by
  induction n using childInduction with
  | step n ih =>
    rcases mem_nodes_iff.mp h with rfl | h
    · exact List.Subset.refl _
    · obtain ⟨d, hd, hc⟩ := mem_descendants_iff.mp h
      intro b hb
      exact mem_descendants_iff.mpr ⟨d, hd, mem_nodes_of_mem_descendants (ih d hd hc hb)⟩

theorem nodes_subset {n c : Node} (h : c ∈ n.nodes) : c.nodes ⊆ n.nodes := by
  intro b hb
  rcases mem_nodes_iff.mp hb with rfl | hb
  · exact h
  · exact mem_nodes_of_mem_descendants (descendants_subset h hb)

/-! ## The order of the walk -/

/-- Where no node is repeated, the walk comes to no node after one that lies below it. -/
theorem pairwise_nodes {n : Node} (h : n.nodes.Nodup) :
    n.nodes.Pairwise fun a b => a ∉ b.descendants := by
  induction n using childInduction with
  | step n ih =>
    rw [nodes_eq] at h ⊢
    rw [List.nodup_cons, descendants, nodesOfAll_eq, List.nodup_flatMap] at h
    obtain ⟨hself, heach, hapart⟩ := h
    rw [List.pairwise_cons]
    constructor
    · intro b hb hn
      exact not_mem_descendants_self n (descendants_subset (mem_nodes_of_mem_descendants hb) hn)
    · rw [descendants, nodesOfAll_eq, List.pairwise_flatMap]
      refine ⟨fun c hc => ih c hc (heach c hc), hapart.imp fun {c d} hcd a ha b hb hab => ?_⟩
      exact hcd ha (mem_nodes_of_mem_descendants (descendants_subset hb hab))

/-! ## Children and patterns -/

theorem mem_descendants_of_child? {n c : Node} {field : String} (h : n.child? field = some c) :
    c ∈ n.descendants :=
  mem_descendants_of_mem_children (List.mem_of_find?_eq_some h)

theorem mem_descendants_of_namedChildren {n c : Node} (h : c ∈ n.namedChildren) :
    c ∈ n.descendants :=
  mem_descendants_of_mem_children (List.mem_of_mem_filter h)

theorem mem_descendants_trans {n c b : Node} (hc : c ∈ n.descendants) (hb : b ∈ c.nodes) :
    b ∈ n.descendants := by
  rcases mem_nodes_iff.mp hb with rfl | hb
  · exact hc
  · exact descendants_subset (mem_nodes_of_mem_descendants hc) hb

theorem exists_of_mem_bindingsUnder {field : String} {cs : List Node} {b : Node}
    (h : b ∈ bindingsUnder field cs) : ∃ c ∈ cs, b ∈ c.bindings := by
  induction cs with
  | nil => cases h
  | cons c cs ih =>
    rw [bindingsUnder] at h
    split at h
    · exact ⟨c, List.mem_cons_self, h⟩
    · obtain ⟨d, hd, hb⟩ := ih h
      exact ⟨d, List.mem_cons_of_mem _ hd, hb⟩

theorem exists_of_mem_bindingsOfNamed {cs : List Node} {b : Node} (h : b ∈ bindingsOfNamed cs) :
    ∃ c ∈ cs, b ∈ c.bindings := by
  induction cs with
  | nil => cases h
  | cons c cs ih =>
    rw [bindingsOfNamed, List.mem_append] at h
    rcases h with h | h
    · split at h
      · exact ⟨c, List.mem_cons_self, h⟩
      · cases h
    · obtain ⟨d, hd, hb⟩ := ih h
      exact ⟨d, List.mem_cons_of_mem _ hd, hb⟩

/-- A pattern binds nodes of its own. -/
theorem bindings_subset (n : Node) : n.bindings ⊆ n.nodes := by
  induction n using childInduction with
  | step n ih =>
    intro b hb
    cases n with
    | mk label children =>
      have hchild : (∃ c ∈ children, b ∈ c.bindings) → b ∈ (mk label children).nodes := by
        rintro ⟨c, hc, hb⟩
        exact mem_nodes_of_mem_descendants (mem_descendants_iff.mpr ⟨c, hc, ih c hc hb⟩)
      rw [bindings] at hb
      cases hrole : patternRole label.kind with
      | binds =>
        rw [hrole] at hb
        rw [List.mem_singleton.mp hb]
        exact self_mem_nodes _
      | passes field =>
        rw [hrole] at hb
        exact hchild (exists_of_mem_bindingsUnder hb)
      | groups =>
        rw [hrole] at hb
        exact hchild (exists_of_mem_bindingsOfNamed hb)

theorem mem_descendants_of_boundUnder {n b : Node} {field : String} (h : b ∈ n.boundUnder field) :
    b ∈ n.descendants := by
  unfold boundUnder at h
  cases hc : n.child? field with
  | none =>
    rw [hc] at h
    cases h
  | some c =>
    rw [hc] at h
    exact mem_descendants_trans (mem_descendants_of_child? hc) (bindings_subset c h)

theorem mem_nodes_of_parameterBindings {n b : Node} (h : b ∈ n.parameterBindings) :
    b ∈ n.nodes := by
  unfold parameterBindings at h
  split at h
  · exact mem_nodes_of_mem_descendants (mem_descendants_of_boundUnder h)
  · exact bindings_subset n h

theorem mem_descendants_of_parameters {n b : Node} (h : b ∈ n.parameters) : b ∈ n.descendants := by
  unfold parameters at h
  cases hl : n.child? "parameters" with
  | none =>
    rw [hl] at h
    cases h
  | some list =>
    rw [hl] at h
    obtain ⟨p, hp, hb⟩ := List.mem_flatMap.mp h
    have hlist := mem_descendants_of_child? hl
    exact mem_descendants_trans hlist
      (mem_nodes_of_mem_descendants (mem_descendants_trans (mem_descendants_of_namedChildren hp)
        (mem_nodes_of_parameterBindings hb)))

end SourceAtlas.Syntax.Node
