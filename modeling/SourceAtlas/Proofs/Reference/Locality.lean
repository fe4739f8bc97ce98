import SourceAtlas.Proofs.Reference.Collect

/-!
# Statements by themselves

The statements of a file share one walk and one set of claimed nodes. They do not disturb one
another: each claims nodes of its own, so a file has the references of its statements, one after
the other.

Results:
* `attributions_flatMap`: a root that claims nothing has the references of its children, each
  attributed to the node that it is attributed to in the child alone.
* `referencesOf_statements`: a file has the references of its statements, and another statement in
  the place of one leaves those of the rest as they are.
-/

namespace SourceAtlas

open Syntax

/-- The references of a tree, each with the node that it is of. -/
def attributions (source : Array UInt8) (root : Node) : List (Node × Reference) :=
  attributedAfter source [] (events source root)

theorem referencesOf_eq_attributions (source : Array UInt8) (root : Node) :
    referencesOf source root = (attributions source root).map Prod.snd :=
  referencesOf_eq_map source root

/-! ## Events behind others -/

theorem attributedAfter_append (source : Array UInt8) (done es es' : List Event) :
    attributedAfter source done (es ++ es') =
      attributedAfter source done es ++ attributedAfter source (done ++ es) es' := by
  induction es generalizing done with
  | nil => simp [attributedAfter]
  | cons e es ih => simp [attributedAfter, ih]

/-- Events that are about none of the nodes claimed before make the references that they make by
    themselves. -/
theorem attributedAfter_of_unclaimed (source : Array UInt8) {before es : List Event}
    (h : ∀ e ∈ es, before.any (Event.claims e.node.key) = false) (done : List Event) :
    attributedAfter source (before ++ done) es = attributedAfter source done es := by
  induction es generalizing done with
  | nil => rfl
  | cons e es ih =>
    rw [List.forall_mem_cons] at h
    rw [attributedAfter, attributedAfter, List.append_assoc, ih h.2, List.any_append, h.1,
      Bool.false_or]

/-! ## Trees beside one another -/

/-- No node below the first tree has the place and kind of a node below the second, nor those of
    the second itself where it is an identifier. -/
def Syntax.Node.Apart (a b : Node) : Prop :=
  ∀ m ∈ a.descendants, (∀ n ∈ b.descendants, m.key ≠ n.key) ∧
    (NodeClass.of b.kind = .identifier → m.key ≠ b.key)

/-- A walk comes to claims only on nodes below the root. -/
theorem node_mem_descendants_of_claim {source : Array UInt8} {root : Node} {c : Claim}
    (h : .claim c ∈ events source root) : c.node ∈ root.descendants := by
  rw [events_eq, List.mem_flatMap] at h
  obtain ⟨n, hn, hc⟩ := h
  rcases eventsOf_cases source n with ⟨-, -, hof⟩ | ⟨-, hof⟩ <;> rw [hof] at hc
  · cases List.mem_singleton.mp hc
  · obtain ⟨c', hc', hcc⟩ := List.mem_map.mp hc
    cases hcc
    exact Node.descendants_subset hn (within_of_mem_claimsOf hc').descends

/-- What a walk comes to is about a node below the root, or about the root, an identifier. -/
theorem node_of_mem_events {source : Array UInt8} {root : Node} {e : Event}
    (h : e ∈ events source root) :
    e.node ∈ root.descendants ∨ (e.node = root ∧ NodeClass.of root.kind = .identifier) := by
  cases e with
  | claim c => exact Or.inl (node_mem_descendants_of_claim h)
  | mention n =>
    obtain ⟨hn, hid⟩ := mem_events_mention.mp h
    rcases Node.mem_nodes_iff.mp hn with rfl | hn
    · exact Or.inr ⟨rfl, hid⟩
    · exact Or.inl hn

/-- A tree claims none of the nodes that a walk through one apart from it comes to. -/
theorem Syntax.Node.Apart.unclaimed {source : Array UInt8} {a b : Node} (h : a.Apart b) :
    ∀ e ∈ events source b, (events source a).any (Event.claims e.node.key) = false := by
  intro e he
  rw [List.any_eq_false]
  intro e' he' hclaims
  obtain ⟨c, rfl, hkey⟩ := Event.claims_eq_true_iff.mp hclaims
  obtain ⟨hbelow, hroot⟩ := h c.node (node_mem_descendants_of_claim he')
  rcases node_of_mem_events he with hn | ⟨hn, hid⟩
  · exact hbelow e.node hn hkey
  · exact hroot hid (hn ▸ hkey)

/-- Trees apart from one another have their references one after the other. -/
theorem attributedAfter_eventsOfAll (source : Array UInt8) {ns : List Node}
    (h : ns.Pairwise Node.Apart) :
    attributedAfter source [] (eventsOfAll source ns) = ns.flatMap (attributions source) := by
  induction ns with
  | nil => rfl
  | cons n ns ih =>
    rw [List.pairwise_cons] at h
    have hfree : ∀ e ∈ eventsOfAll source ns,
        (events source n).any (Event.claims e.node.key) = false := by
      intro e he
      rw [eventsOfAll_eq, List.mem_flatMap] at he
      obtain ⟨m, hm, he⟩ := he
      exact (h.1 m hm).unclaimed e he
    have hrest := attributedAfter_of_unclaimed source hfree []
    rw [List.append_nil] at hrest
    rw [eventsOfAll, attributedAfter_append, List.nil_append, hrest, ih h.2, List.flatMap_cons,
      attributions]

/-! ## Statements -/

/-- A root that claims nothing and is no identifier adds nothing to the walk through its
    children. -/
theorem events_of_other {source : Array UInt8} {root : Node}
    (hroot : NodeClass.of root.kind = .other) :
    events source root = eventsOfAll source root.children := by
  cases root with
  | mk label children =>
    have hown : eventsOf source (.mk label children) = [] := by
      unfold eventsOf claimsOf
      rw [hroot]
      rfl
    rw [events, hown]
    rfl

/-- A root that claims nothing has the references of its children, each attributed to the node
    that it is attributed to in the child alone. -/
theorem attributions_flatMap {source : Array UInt8} {root : Node}
    (hroot : NodeClass.of root.kind = .other) (hapart : root.children.Pairwise Node.Apart) :
    attributions source root = root.children.flatMap (attributions source) := by
  rw [attributions, events_of_other hroot, attributedAfter_eventsOfAll source hapart]

/-- **Statements do not disturb one another.** Where the statements of a file are apart from one
    another, its references are those of its statements, each walked by itself, one after the
    other. So where statements are added, removed or changed at one place, all others keep the
    references that they have, and each of these its node. -/
theorem referencesOf_statements (source : Array UInt8) {root : Node}
    (hroot : NodeClass.of root.kind = .other) (hapart : root.children.Pairwise Node.Apart) :
    referencesOf source root = root.children.flatMap (referencesOf source) ∧
    ∀ root' : Node, NodeClass.of root'.kind = .other → root'.children.Pairwise Node.Apart →
      ∀ before here there after, root.children = before ++ here ++ after →
        root'.children = before ++ there ++ after →
        attributions source root = before.flatMap (attributions source) ++
            here.flatMap (attributions source) ++ after.flatMap (attributions source) ∧
          attributions source root' = before.flatMap (attributions source) ++
            there.flatMap (attributions source) ++ after.flatMap (attributions source) := by
  constructor
  · rw [referencesOf_eq_attributions, attributions_flatMap hroot hapart, List.map_flatMap]
    exact List.flatMap_congr fun n _ => (referencesOf_eq_attributions source n).symm
  · intro root' hroot' hapart' before here there after hchildren hchildren'
    constructor
    · rw [attributions_flatMap hroot hapart, hchildren, List.flatMap_append, List.flatMap_append]
    · rw [attributions_flatMap hroot' hapart', hchildren', List.flatMap_append,
        List.flatMap_append]

/-- The text of a file of two statements, of which the second uses what the first declares. -/
def twoLines : Array UInt8 := (Text.Utf8.encode "let a = b\na".toList).toArray

/-- The first of its statements. -/
def firstLine : Node :=
  .mk ⟨"lexical_declaration", true, 0, 9, 0, none⟩ [
    .mk ⟨"let", false, 0, 3, 0, some "kind"⟩ [],
    .mk ⟨"variable_declarator", true, 4, 9, 0, none⟩ [
      .mk ⟨"identifier", true, 4, 5, 0, some "name"⟩ [],
      .mk ⟨"=", false, 6, 7, 0, none⟩ [],
      .mk ⟨"identifier", true, 8, 9, 0, some "value"⟩ []]]

/-- The second of its statements. -/
def secondLine : Node :=
  .mk ⟨"expression_statement", true, 10, 11, 1, none⟩ [
    .mk ⟨"identifier", true, 10, 11, 1, none⟩ []]

/-- Statements as the tree of a file. -/
def fileOf (statements : List Node) : Node := .mk ⟨"program", true, 0, 11, 0, none⟩ statements

theorem referencesOf_statements_twoLines :
    [firstLine, secondLine].Pairwise Node.Apart ∧
      referencesOf twoLines (fileOf [firstLine, secondLine]) =
        [⟨"a", .declaration, 1, none⟩, ⟨"b", .usage, 1, none⟩, ⟨"a", .usage, 2, none⟩] ∧
      (attributions twoLines (fileOf [secondLine])).map Prod.snd = [⟨"a", .usage, 2, none⟩] := by
  have hroot (statements : List Node) : NodeClass.of (fileOf statements).kind = .other := by rfl
  have hapart : [firstLine, secondLine].Pairwise Node.Apart := by
    unfold Node.Apart
    decide
  obtain ⟨heach, hplace⟩ := referencesOf_statements twoLines (hroot _) hapart
  -- The file without its first line: nothing stands in the place of that line.
  have hrest := (hplace (fileOf [secondLine]) (hroot _) (List.pairwise_singleton _ _)
    [] [firstLine] [] [secondLine] rfl rfl).2
  refine ⟨hapart, ?_, ?_⟩
  · rw [heach, List.flatMap_congr fun n _ => referencesOf_eq_attributions twoLines n]
    rfl
  · rw [hrest]
    rfl

end SourceAtlas
