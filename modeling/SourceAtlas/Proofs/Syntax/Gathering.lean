import Mathlib.Data.List.Flatten
import Mathlib.Data.List.Lex
import Mathlib.Logic.Function.Iterate
import Mathlib.Tactic.Choose
import SourceAtlas.Proofs.Syntax.Ancestor
import SourceAtlas.Proofs.Syntax.Pattern

/-!
# Gathering what a pattern binds

The names in a pattern are looked for with a stack: round after round the node on top is taken off,
and it is either a name or is replaced by those of its children in which the search goes on. A place
in a tree is the list of the indices of the children on the way down to it, so that places in the
order of a walk are in lexicographic order.

Results:
* `exists_iterate_round`: the search ends, and has then found what the pattern binds.
* `atPlaces_bindings`: a pattern binds the names at the places that the search reaches, each place
  once and in order.
* `not_reaches_beside`: a pattern that passes the search on to one of its children has nothing that
  the search reaches in the others.
-/

namespace SourceAtlas.Syntax

namespace Node

variable {p : Node}

/-- The children of a node of a pattern in which the search for names goes on. -/
def inner (p : Node) : List Node :=
  match patternRole p.kind with
  | .binds => []
  | .passes field => (p.child? field).toList
  | .groups => p.namedChildren

theorem bindings_of_binds (h : patternRole p.kind = .binds) : p.bindings = [p] := by
  rw [bindings_eq, h]

theorem bindings_of_not_binds (h : patternRole p.kind ≠ .binds) :
    p.bindings = p.inner.flatMap bindings := by
  rw [bindings_eq, inner]
  cases hrole : patternRole p.kind with
  | binds => exact absurd hrole h
  | passes field =>
    show p.boundUnder field = (p.child? field).toList.flatMap bindings
    unfold boundUnder
    cases p.child? field with
    | none => rfl
    | some c => exact (List.flatMap_singleton bindings c).symm
  | groups => rfl

theorem inner_sublist (p : Node) : p.inner.Sublist p.children := by
  unfold inner
  split
  · exact List.nil_sublist _
  · cases hc : p.child? _ with
    | none => exact List.nil_sublist _
    | some c => exact List.singleton_sublist.mpr (List.mem_of_find?_eq_some hc)
  · exact List.filter_sublist

end Node

/-! ## The stack -/

/-- The nodes that are still to be looked at, the next one first, and the names found so far. -/
structure Gathering where
  ahead : List Node
  found : List Node

namespace Gathering

/-- One round of the search. -/
def round (g : Gathering) : Gathering :=
  match g.ahead with
  | [] => g
  | n :: rest =>
    match Node.patternRole n.kind with
    | .binds => ⟨rest, g.found ++ [n]⟩
    | .passes field => ⟨(n.child? field).toList ++ rest, g.found⟩
    | .groups => ⟨n.namedChildren ++ rest, g.found⟩

theorem round_of_binds {n : Node} (h : Node.patternRole n.kind = .binds) (rest found : List Node) :
    round ⟨n :: rest, found⟩ = ⟨rest, found ++ n.bindings⟩ := by
  rw [Node.bindings_of_binds h]
  simp only [round, h]

theorem round_of_not_binds {n : Node} (h : Node.patternRole n.kind ≠ .binds)
    (rest found : List Node) : round ⟨n :: rest, found⟩ = ⟨n.inner ++ rest, found⟩ := by
  cases hrole : Node.patternRole n.kind with
  | binds => exact absurd hrole h
  | passes field => simp only [round, Node.inner, hrole]
  | groups => simp only [round, Node.inner, hrole]

/-- If the search gets through each of some nodes, it gets through them one after the other. -/
theorem exists_iterate_round_append {cs : List Node}
    (h : ∀ c ∈ cs, ∀ rest found, ∃ k ≤ c.nodes.length,
      round^[k] ⟨c :: rest, found⟩ = ⟨rest, found ++ c.bindings⟩) (rest found : List Node) :
    ∃ k ≤ (cs.flatMap Node.nodes).length,
      round^[k] ⟨cs ++ rest, found⟩ = ⟨rest, found ++ cs.flatMap Node.bindings⟩ := by
  induction cs generalizing found with
  | nil => exact ⟨0, Nat.le_refl _, by simp⟩
  | cons c cs ih =>
    obtain ⟨k, hk, hc⟩ := h c List.mem_cons_self (cs ++ rest) found
    obtain ⟨l, hl, hcs⟩ := ih (fun d hd => h d (List.mem_cons_of_mem _ hd)) (found ++ c.bindings)
    refine ⟨l + k, ?_, ?_⟩
    · rw [List.flatMap_cons, List.length_append]
      omega
    · rw [Function.iterate_add_apply, List.cons_append, hc, hcs, List.flatMap_cons,
        List.append_assoc]

/-- The search gets through the node on top of the stack, in no more rounds than there are nodes in
    its tree, and has then found what the node binds. -/
theorem exists_iterate_round (n : Node) (rest found : List Node) :
    ∃ k ≤ n.nodes.length, round^[k] ⟨n :: rest, found⟩ = ⟨rest, found ++ n.bindings⟩ := by
  induction n using Node.childInduction generalizing rest found with
  | step n ih =>
    by_cases h : Node.patternRole n.kind = .binds
    · refine ⟨1, ?_, round_of_binds h rest found⟩
      rw [Node.nodes_eq, List.length_cons]
      omega
    · have hinner := n.inner_sublist
      obtain ⟨k, hk, hcs⟩ :=
        exists_iterate_round_append (fun c hc => ih c (hinner.subset hc)) rest found
      refine ⟨k + 1, ?_, ?_⟩
      · have hle := (hinner.flatMap Node.nodes).length_le
        rw [Node.nodes_eq, List.length_cons, Node.descendants, Node.nodesOfAll_eq]
        omega
      · rw [Function.iterate_add_apply, Function.iterate_one, round_of_not_binds h, hcs,
          Node.bindings_of_not_binds h]

end Gathering

/-! ## Places -/

/-- The list `ns` has the nodes that `P` tells at some places, each place once and in order. -/
def AtPlaces {α : Type} [LT α] (P : α → Node → Prop) (ns : List Node) : Prop :=
  ∃ places : List (α × Node), places.map Prod.snd = ns ∧ places.Pairwise (·.1 < ·.1) ∧
    ∀ w n, (w, n) ∈ places ↔ P w n

namespace AtPlaces

/-- Nodes below others, each at a place that starts with the index of the one above it. -/
theorem flatMap {P : Nat → Node → Prop} {Q : Node → List Nat → Node → Prop} {cs : List Node}
    {f : Node → List Node} (h : AtPlaces P cs) (hf : ∀ i c, P i c → AtPlaces (Q c) (f c)) :
    AtPlaces (fun w n => ∃ i v c, w = i :: v ∧ P i c ∧ Q c v n) (cs.flatMap f) := by
  obtain ⟨tops, rfl, hsorted, hP⟩ := h
  have hplaces : ∀ top ∈ tops, ∃ places : List (List Nat × Node),
      places.map Prod.snd = f top.2 ∧ places.Pairwise (·.1 < ·.1) ∧
        ∀ v n, (v, n) ∈ places ↔ Q top.2 v n :=
    fun top htop => hf top.1 top.2 ((hP _ _).mp htop)
  choose! places hnodes horder hQ using hplaces
  refine ⟨tops.flatMap fun top => (places top).map fun place => (top.1 :: place.1, place.2),
    ?_, ?_, ?_⟩
  · rw [List.map_flatMap, List.flatMap_map]
    refine List.flatMap_congr fun top htop => ?_
    rw [List.map_map, ← hnodes top htop]
    rfl
  · rw [List.pairwise_flatMap]
    constructor
    · intro top htop
      rw [List.pairwise_map]
      exact (horder top htop).imp fun hlt => List.cons_lt_cons_iff.mpr (Or.inr ⟨rfl, hlt⟩)
    · refine hsorted.imp fun {a b} hlt x hx y hy => ?_
      obtain ⟨x', -, rfl⟩ := List.mem_map.mp hx
      obtain ⟨y', -, rfl⟩ := List.mem_map.mp hy
      exact List.cons_lt_cons_iff.mpr (Or.inl hlt)
  · intro w n
    rw [List.mem_flatMap]
    constructor
    · rintro ⟨top, htop, hmem⟩
      obtain ⟨place, hplace, heq⟩ := List.mem_map.mp hmem
      cases heq
      exact ⟨top.1, place.1, top.2, rfl, (hP _ _).mp htop, (hQ top htop _ _).mp hplace⟩
    · rintro ⟨i, v, c, rfl, hi, hv⟩
      have htop := (hP i c).mpr hi
      exact ⟨(i, c), htop, List.mem_map.mpr ⟨(v, n), (hQ _ htop v n).mpr hv, rfl⟩⟩

theorem congr {α : Type} [LT α] {P Q : α → Node → Prop} {ns : List Node} (h : AtPlaces P ns)
    (hPQ : ∀ w n, P w n ↔ Q w n) : AtPlaces Q ns := by
  obtain ⟨places, hnodes, horder, hP⟩ := h
  exact ⟨places, hnodes, horder, fun w n => (hP w n).trans (hPQ w n)⟩

theorem mem_iff {α : Type} [LT α] {P : α → Node → Prop} {ns : List Node} (h : AtPlaces P ns)
    {n : Node} : n ∈ ns ↔ ∃ w, P w n := by
  obtain ⟨places, rfl, -, hP⟩ := h
  simp only [List.mem_map, Prod.exists, exists_eq_right, hP]

end AtPlaces

namespace Node

variable {p q c n : Node} {field : String} {i j : Nat} {w v : List Nat}

/-- A name that a pattern binds. -/
def IsName (n : Node) : Prop :=
  n.kind = "identifier" ∨ n.kind = "shorthand_property_identifier_pattern"

/-- A pattern with a default or a pair, whose names all stand under the field. -/
def Passes (p : Node) (field : String) : Prop :=
  (p.kind = "assignment_pattern" ∨ p.kind = "object_assignment_pattern") ∧ field = "left" ∨
    p.kind = "pair_pattern" ∧ field = "value"

/-- The search goes on from the node `p` of a pattern in its child `c` at the index `i`: in the
    first child under the field where all names stand under one, and else in each named child,
    unless the node is a name itself. -/
def Enters (p : Node) (i : Nat) (c : Node) : Prop :=
  p.children[i]? = some c ∧
    ((∃ field, p.Passes field ∧
        p.children.findIdx? (fun d => d.label.field == some field) = some i) ∨
      ¬p.IsName ∧ (∀ field, ¬p.Passes field) ∧ c.label.named = true)

theorem patternRole_eq_binds_iff : patternRole n.kind = .binds ↔ n.IsName := by
  unfold patternRole IsName
  grind

theorem patternRole_eq_passes_iff : patternRole p.kind = .passes field ↔ p.Passes field := by
  unfold patternRole Passes
  grind

/-- Where the search goes on, by what the node does in a pattern. -/
theorem enters_iff : p.Enters i c ↔ p.children[i]? = some c ∧
    match patternRole p.kind with
    | .binds => False
    | .passes field => p.children.findIdx? (fun d => d.label.field == some field) = some i
    | .groups => c.label.named = true := by
  have hpasses {field : String} : p.Passes field ↔ patternRole p.kind = .passes field :=
    patternRole_eq_passes_iff.symm
  unfold Enters
  simp only [hpasses, ← patternRole_eq_binds_iff]
  cases patternRole p.kind <;> simp

/-- The search through the pattern `p` reaches the node `n` at the place `w`. -/
inductive Reaches : Node → List Nat → Node → Prop
  | here (p : Node) : Reaches p [] p
  | down {p c n : Node} {i : Nat} {w : List Nat} : p.Enters i c → Reaches c w n →
      Reaches p (i :: w) n

theorem reaches_cons_iff : p.Reaches (i :: w) n ↔ ∃ c, p.Enters i c ∧ c.Reaches w n := by
  constructor
  · intro h
    cases h with
    | down hi hw => exact ⟨_, hi, hw⟩
  · rintro ⟨c, hi, hw⟩
    exact .down hi hw

/-- Children that satisfy a condition are in order. -/
theorem atPlaces_filter (cs : List Node) (f : Node → Bool) :
    AtPlaces (fun (i : Nat) c => cs[i]? = some c ∧ f c = true) (cs.filter f) := by
  refine ⟨(cs.zipIdx.filter fun place => f place.1).map Prod.swap, ?_, ?_, ?_⟩
  · have hfst : cs = cs.zipIdx.map Prod.fst := (List.zipIdx_map_fst 0 cs).symm
    conv_rhs => rw [hfst, List.filter_map]
    rw [List.map_map]
    rfl
  · have hsorted : cs.zipIdx.Pairwise (·.2 < ·.2) := by
      rw [← List.pairwise_map, List.zipIdx_map_snd]
      exact List.pairwise_lt_range' 1
    rw [List.pairwise_map]
    exact hsorted.filter _
  · intro i c
    rw [List.mem_map]
    constructor
    · rintro ⟨place, hplace, heq⟩
      cases heq
      rw [List.mem_filter, List.mk_mem_zipIdx_iff_getElem?] at hplace
      exact hplace
    · rintro ⟨hi, hc⟩
      exact ⟨(c, i), List.mem_filter.mpr ⟨List.mk_mem_zipIdx_iff_getElem?.mpr hi, hc⟩, rfl⟩

/-- The children in which the search goes on are in order. -/
theorem atPlaces_inner (p : Node) : AtPlaces p.Enters p.inner := by
  refine AtPlaces.congr ?_ fun i c => enters_iff.symm
  unfold inner
  cases patternRole p.kind with
  | binds => exact ⟨[], rfl, .nil, fun w n => by simp⟩
  | groups => exact atPlaces_filter p.children fun c => c.label.named
  | passes field =>
    dsimp only
    have hchild : p.child? field = _ := List.find?_eq_bind_findIdx?_getElem?
    cases hidx : p.children.findIdx? fun d => d.label.field == some field with
    | none =>
      rw [hidx] at hchild
      rw [hchild]
      exact ⟨[], rfl, .nil, fun w n => by simp⟩
    | some i =>
      obtain ⟨hi, -⟩ := List.findIdx?_eq_some_iff_getElem.mp hidx
      rw [hidx] at hchild
      rw [hchild, Option.bind_some, List.getElem?_eq_getElem hi]
      refine ⟨[(i, p.children[i])], rfl, List.pairwise_singleton _ _, fun j c => ?_⟩
      rw [List.mem_singleton, Prod.mk.injEq]
      constructor
      · rintro ⟨rfl, rfl⟩
        exact ⟨List.getElem?_eq_getElem hi, rfl⟩
      · rintro ⟨hj, heq⟩
        cases heq
        rw [List.getElem?_eq_getElem hi] at hj
        cases hj
        exact ⟨rfl, rfl⟩

theorem Enters.mem_children (h : p.Enters i c) : c ∈ p.children := List.mem_of_getElem? h.1

/-- A pattern binds the names at the places that the search reaches, each place once and in
    order. -/
theorem atPlaces_bindings (p : Node) :
    AtPlaces (fun w n => p.Reaches w n ∧ n.IsName) p.bindings := by
  induction p using childInduction with
  | step p ih =>
    by_cases h : patternRole p.kind = .binds
    · rw [bindings_of_binds h]
      refine ⟨[([], p)], rfl, List.pairwise_singleton _ _, fun w n => ?_⟩
      rw [List.mem_singleton, Prod.mk.injEq]
      constructor
      · rintro ⟨rfl, rfl⟩
        exact ⟨.here n, patternRole_eq_binds_iff.mp h⟩
      · rintro ⟨hreach, -⟩
        cases hreach with
        | here => exact ⟨rfl, rfl⟩
        | down henter _ =>
          obtain ⟨-, hrole⟩ := enters_iff.mp henter
          rw [h] at hrole
          exact hrole.elim
    · rw [bindings_of_not_binds h]
      refine (p.atPlaces_inner.flatMap fun i c hc => ih c hc.mem_children).congr fun w n => ?_
      constructor
      · rintro ⟨i, v, c, rfl, hi, hv, hn⟩
        exact ⟨.down hi hv, hn⟩
      · rintro ⟨hreach, hn⟩
        cases hreach with
        | here => exact absurd (patternRole_eq_binds_iff.mpr hn) h
        | down hi hv => exact ⟨_, _, _, rfl, hi, hv, hn⟩

/-- A pattern binds the names that the search reaches. -/
theorem binds_iff_reaches : p.Binds n ↔ ∃ w, p.Reaches w n ∧ n.IsName :=
  mem_bindings_iff.symm.trans p.atPlaces_bindings.mem_iff

/-! ## What is passed over -/

/-- The node at a place below a node. -/
def at? (n : Node) : List Nat → Option Node
  | [] => some n
  | i :: w => n.children[i]?.bind fun c => c.at? w

/-- Where a pattern passes the search on to one of its children, nothing is reached in the others:
    no default and no key. -/
theorem not_reaches_beside (hq : p.at? w = some q) (hpasses : q.Passes field)
    (hj : q.children.findIdx? (fun d => d.label.field == some field) ≠ some j) :
    ¬p.Reaches (w ++ j :: v) n := by
  induction w generalizing p with
  | nil =>
    cases hq
    intro h
    obtain ⟨c, hc, -⟩ := reaches_cons_iff.mp h
    obtain ⟨-, hj'⟩ := enters_iff.mp hc
    rw [patternRole_eq_passes_iff.mpr hpasses] at hj'
    exact hj hj'
  | cons i w ih =>
    intro h
    obtain ⟨c, hc, hreach⟩ := reaches_cons_iff.mp h
    rw [at?, hc.1] at hq
    exact ih hq hreach

/-- Where no node is repeated, nothing that stands in another child is bound at all. -/
theorem not_mem_bindings_beside (h : p.nodes.Nodup) (hq : q ∈ p.nodes)
    (hpasses : q.Passes field) (hc : c ∈ q.children) (hne : q.child? field ≠ some c)
    (hn : n ∈ c.nodes) : n ∉ p.bindings := by
  induction p using childInduction with
  | step p ih =>
    intro hmem
    have hnq : n ∈ q.descendants := mem_descendants_iff.mpr ⟨c, hc, hn⟩
    by_cases hbinds : patternRole p.kind = .binds
    · rw [bindings_of_binds hbinds, List.mem_singleton] at hmem
      rw [hmem] at hnq
      exact not_mem_descendants_self p (descendants_subset hq hnq)
    · rw [bindings_of_not_binds hbinds, List.mem_flatMap] at hmem
      obtain ⟨e, he, hmem⟩ := hmem
      have hep := p.inner_sublist.subset he
      have hne' := bindings_subset e hmem
      rcases mem_nodes_iff.mp hq with rfl | hqp
      · obtain rfl := eq_of_mem_nodes_of_children h hep hc hne' hn
        unfold inner at he
        rw [patternRole_eq_passes_iff.mpr hpasses] at he
        exact hne (Option.mem_toList.mp he)
      · obtain ⟨d, hd, hqd⟩ := mem_descendants_iff.mp hqp
        have hnd := mem_nodes_of_mem_descendants (descendants_subset hqd hnq)
        obtain rfl := eq_of_mem_nodes_of_children h hep hd hne' hnd
        exact ih e hep (nodup_nodes h (mem_nodes_of_mem_children hep)) hqd hmem

end Node

end SourceAtlas.Syntax
