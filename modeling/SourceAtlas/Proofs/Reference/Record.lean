import SourceAtlas.Proofs.Reference.Locality
import SourceAtlas.Proofs.Syntax.Ancestor

/-!
# What is recorded of a node

The references that a tree has of one of its nodes. There is at most one, and the first claim on
the node decides it; only nodes above it make claims on it.

Results:
* `recorded_eq`: what is recorded of a node is what it yields.
* `recorded_subtree`: what is recorded of a node in a subtree on which nothing above the subtree
  makes a claim is what is recorded of it in the subtree alone.
* `recorded_usage_iff`: an identifier is recorded as a usage iff there is no claim on it.
* `exists_unclaimedAbove`: on a node that is claimed at all there is a claim above which there is
  none.
-/

namespace SourceAtlas

open Syntax

/-- The references that a tree has of a node. -/
def recorded (source : Array UInt8) (root n : Node) : List Reference :=
  ((attributions source root).filter fun p => p.1.key == n.key).map Prod.snd

/-- Nothing above the subtree `t` makes a claim on the node `n`. -/
def UnclaimedAbove (source : Array UInt8) (root t n : Node) : Prop :=
  ∀ a ∈ root.nodes, t ∈ a.descendants → ∀ c ∈ claimsOf source a, c.node ≠ n

theorem node_mem_of_mem_claimsIn {source : Array UInt8} {root : Node} {c : Claim}
    (h : c ∈ claimsIn source root) : c.node ∈ root.nodes := by
  obtain ⟨a, ha, hc⟩ := List.mem_flatMap.mp h
  exact Node.nodes_subset ha (node_mem_of_mem_claimsOf hc)

section

variable {source : Array UInt8} {root t n : Node} (h : (root.nodes.map Node.key).Nodup)

include h

/-- The claim that is found for a node is one on it. -/
theorem mem_of_find?_key {cs : List Claim} (hin : ∀ c ∈ cs, c.node ∈ root.nodes)
    (hn : n ∈ root.nodes) {d : Claim} (hfind : cs.find? (fun c => c.node.key == n.key) = some d) :
    d ∈ cs ∧ d.node = n := by
  have hd := List.mem_of_find?_eq_some hfind
  have hkey := List.find?_some (p := fun c : Claim => c.node.key == n.key) hfind
  exact ⟨hd, List.inj_on_of_nodup_map h (hin d hd) hn (beq_iff_eq.mp hkey)⟩

/-- What is recorded of a node is what it yields. -/
theorem recorded_eq (hn : n ∈ root.nodes) :
    recorded source root n = (yield? source (claimsIn source root) n).toList := by
  obtain ⟨attributed, hattributed⟩ : ∃ l, l = attributions source root := ⟨_, rfl⟩
  have hmem {p : Node × Reference} : p ∈ attributed ↔
      p.1 ∈ root.nodes ∧ yield? source (claimsIn source root) p.1 = some p.2 := by
    rw [hattributed]
    exact mem_attributed_iff h
  have hnodup : (attributed.map Prod.fst).Nodup := by
    rw [hattributed]
    exact nodup_attributedAfter (pairwise_events h)
  have hof {p : Node × Reference} : p ∈ attributed.filter (fun p => p.1.key == n.key) ↔
      p.1 = n ∧ yield? source (claimsIn source root) n = some p.2 := by
    rw [List.mem_filter, beq_iff_eq, hmem]
    constructor
    · rintro ⟨⟨hp, hy⟩, hkey⟩
      obtain rfl := List.inj_on_of_nodup_map h hp hn hkey
      exact ⟨rfl, hy⟩
    · rintro ⟨rfl, hy⟩
      exact ⟨⟨hn, hy⟩, rfl⟩
  unfold recorded
  rw [← hattributed]
  cases hy : yield? source (claimsIn source root) n with
  | none =>
    have hnil : attributed.filter (fun p => p.1.key == n.key) = [] := by
      rw [List.eq_nil_iff_forall_not_mem]
      intro p hp
      rw [hof, hy] at hp
      cases hp.2
    rw [hnil]
    rfl
  | some r =>
    have hone : attributed.filter (fun p => p.1.key == n.key) = [(n, r)] := by
      refine List.perm_singleton.mp ((List.perm_ext_iff_of_nodup
        (hnodup.of_map.filter _) (List.nodup_singleton _)).mpr fun p => ?_)
      rw [hof, hy, List.mem_singleton, Prod.ext_iff, Option.some_inj, eq_comm (a := r)]
    rw [hone]
    rfl

/-- Above a child of a node that claims nothing there is no claim at all. -/
theorem unclaimedAbove_of_other (ht : t ∈ root.children)
    (hroot : NodeClass.of root.kind = .other) : UnclaimedAbove source root t n := by
  intro a ha hta c hc
  obtain rfl := Node.eq_of_child_mem_descendants h.of_map ht ha hta
  unfold claimsOf at hc
  rw [hroot] at hc
  cases hc

/-- Claims on a node of a subtree are made above the subtree or in it. -/
theorem find?_claims_outside (ht : t ∈ root.nodes) (hn : n ∈ t.nodes)
    (hfree : UnclaimedAbove source root t n) (outside : List Node)
    (hin : ∀ a ∈ outside, a ∈ root.nodes ∧ a ∉ t.nodes) :
    (outside.flatMap (claimsOf source)).find? (fun c => c.node.key == n.key) = none := by
  rw [List.find?_eq_none]
  intro c hc hkey
  obtain ⟨a, ha, hc⟩ := List.mem_flatMap.mp hc
  obtain ⟨haroot, hat⟩ := hin a ha
  have hbelow := node_mem_of_mem_claimsOf hc
  have hcn : c.node = n := List.inj_on_of_nodup_map h (Node.nodes_subset haroot hbelow)
    (Node.nodes_subset ht hn) (beq_iff_eq.mp hkey)
  rcases Node.mem_nodes_or_mem_descendants h.of_map haroot ht (hcn ▸ hbelow) hn with hmem | hmem
  · exact hat hmem
  · exact hfree a haroot hmem c hc hcn

/-- A node of a subtree yields what it yields in the subtree alone, unless something above the
    subtree makes a claim on it. -/
theorem yield?_subtree (ht : t ∈ root.nodes) (hn : n ∈ t.nodes)
    (hfree : UnclaimedAbove source root t n) :
    yield? source (claimsIn source root) n = yield? source (claimsIn source t) n := by
  obtain ⟨before, after, hnodes⟩ := Node.nodes_contained ht
  have hdistinct := h.of_map
  rw [← hnodes, List.nodup_append, List.nodup_append] at hdistinct
  obtain ⟨⟨-, -, hbefore⟩, -, hafter⟩ := hdistinct
  have hmem {a : Node} (ha : a ∈ before ∨ a ∈ after) : a ∈ root.nodes := by
    rw [← hnodes, List.mem_append, List.mem_append]
    exact ha.elim (fun ha => Or.inl (Or.inl ha)) Or.inr
  have hnone₁ := find?_claims_outside h ht hn hfree before
    fun a ha => ⟨hmem (Or.inl ha), fun hat => hbefore a ha a hat rfl⟩
  have hnone₂ := find?_claims_outside h ht hn hfree after
    fun a ha => ⟨hmem (Or.inr ha), fun hat => hafter a (List.mem_append_right _ hat) a ha rfl⟩
  have hfind : (claimsIn source root).find? (fun c => c.node.key == n.key) =
      (claimsIn source t).find? fun c => c.node.key == n.key := by
    rw [claimsIn, ← hnodes, List.flatMap_append, List.flatMap_append, List.find?_append,
      List.find?_append, hnone₁, hnone₂, Option.none_or, Option.or_none, claimsIn]
  unfold yield?
  rw [hfind]

theorem nodup_keys_of_mem (ht : t ∈ root.nodes) : (t.nodes.map Node.key).Nodup :=
  h.sublist ((Node.nodes_contained ht).sublist.map _)

/-- What is recorded of a node in a subtree on which nothing above the subtree makes a claim is
    what is recorded of it in the subtree alone. -/
theorem recorded_subtree (ht : t ∈ root.nodes) (hn : n ∈ t.nodes)
    (hfree : UnclaimedAbove source root t n) :
    recorded source root n = recorded source t n := by
  rw [recorded_eq h (Node.nodes_subset ht hn), recorded_eq (nodup_keys_of_mem h ht) hn,
    yield?_subtree h ht hn hfree]

/-- A node that the first claim on it binds has the reference that the claim says. -/
theorem recorded_of_bind {kind : RefKind} {from? : Option String} (hn : n ∈ root.nodes)
    (hfirst : (claimsIn source root).find? (fun c => c.node.key == n.key) =
      some (.bind kind from? n)) :
    recorded source root n = (n.reference? source kind from?).toList := by
  rw [recorded_eq h hn]
  unfold yield?
  rw [hfirst]
  rfl

/-- A node on which there is a claim is recorded as no usage. -/
theorem kind_ne_usage_of_claimed (hn : n ∈ root.nodes)
    (hclaimed : ∃ c ∈ claimsIn source root, c.node = n) {r : Reference}
    (hr : r ∈ recorded source root n) : r.kind ≠ .usage := by
  obtain ⟨c, hc, rfl⟩ := hclaimed
  rw [recorded_eq h hn, Option.mem_toList] at hr
  unfold yield? at hr
  split at hr
  · rename_i d hfind
    obtain ⟨a, -, hd⟩ := List.mem_flatMap.mp (List.mem_of_find?_eq_some hfind)
    obtain ⟨b, hb, hr⟩ := Option.bind_eq_some_iff.mp hr
    rw [(of_mem_reference? hr).1]
    exact (within_of_mem_claimsOf hd).kind b hb
  · rename_i hfind
    exact absurd (beq_self_eq_true c.node.key) (List.find?_eq_none.mp hfind c hc)

/-- An identifier with a text is recorded as a usage iff there is no claim on it. -/
theorem recorded_usage_iff (hn : n ∈ root.nodes) (hid : NodeClass.of n.kind = .identifier)
    (htext : n.text source ≠ "") :
    recorded source root n = [⟨n.text source, .usage, n.line, none⟩] ↔
      ∀ c ∈ claimsIn source root, c.node ≠ n := by
  constructor
  · intro hrecorded c hc hcn
    have hr : (⟨n.text source, .usage, n.line, none⟩ : Reference) ∈ recorded source root n := by
      rw [hrecorded]
      exact List.mem_singleton_self _
    exact kind_ne_usage_of_claimed h hn ⟨c, hc, hcn⟩ hr rfl
  · intro hfree
    have hnone : (claimsIn source root).find? (fun c => c.node.key == n.key) = none := by
      cases hfind : (claimsIn source root).find? (fun c => c.node.key == n.key) with
      | none => rfl
      | some c =>
        obtain ⟨hc, hcn⟩ := mem_of_find?_key h (fun _ hc => node_mem_of_mem_claimsIn hc) hn hfind
        exact absurd hcn (hfree c hc)
    rw [recorded_eq h hn]
    unfold yield?
    rw [hnone, if_pos hid, Node.reference?, if_neg htext]
    rfl

omit h in
/-- Of the nodes that make a claim on a node, one has none of the others above it. -/
theorem exists_unclaimedAbove (hdistinct : root.nodes.Nodup)
    (hclaimed : ∃ a ∈ root.nodes, ∃ c ∈ claimsOf source a, c.node = n) :
    ∃ a ∈ root.nodes, UnclaimedAbove source root a n ∧ ∃ c ∈ claimsOf source a, c.node = n := by
  induction root using Node.childInduction with
  | step root ih =>
    by_cases hroot : ∃ c ∈ claimsOf source root, c.node = n
    · refine ⟨root, root.self_mem_nodes, fun a ha habove => ?_, hroot⟩
      exact absurd (Node.descendants_subset ha habove) (Node.not_mem_descendants_self root)
    · obtain ⟨a, ha, hclaims⟩ := hclaimed
      have hbelow : a ∈ root.descendants :=
        (Node.mem_nodes_iff.mp ha).resolve_left fun heq => hroot (heq ▸ hclaims)
      obtain ⟨t, ht, hat⟩ := Node.mem_descendants_iff.mp hbelow
      have ht' := Node.mem_nodes_of_mem_children ht
      obtain ⟨b, hb, hfree, hbclaims⟩ :=
        ih t ht (Node.nodup_nodes hdistinct ht') ⟨a, hat, hclaims⟩
      refine ⟨b, Node.nodes_subset ht' hb, fun x hx habove => ?_, hbclaims⟩
      rcases Node.mem_nodes_iff.mp hx with rfl | hx
      · exact fun c hc hcn => hroot ⟨c, hc, hcn⟩
      · -- What is above `b` and below the root is in the child in which `b` is.
        obtain ⟨u, hu, hxu⟩ := Node.mem_descendants_iff.mp hx
        obtain rfl := Node.eq_of_mem_nodes_of_children hdistinct ht hu hb
          (Node.nodes_subset hxu (Node.mem_nodes_of_mem_descendants habove))
        exact hfree x hxu habove

end

end SourceAtlas
