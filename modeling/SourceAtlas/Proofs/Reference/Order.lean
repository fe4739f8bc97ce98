import SourceAtlas.Proofs.Reference.Locality
import SourceAtlas.Proofs.Syntax.Layout

/-!
# The order of references

A walk comes to the nodes of a tree in the order of the text, but a statement or declaration records
the names that it binds before the walk goes on below it. So references are in the order of the
text, except for names that are recorded ahead of what stands below the node that binds them.

Results:
* `attributions_sublist`: the references of a tree are among those that its nodes record, in the
  order of the walk.
* `pairwise_boundNodes_claimsOf`: the names that one node binds are in the order of the text.
* `attributions_ordered`: which references are in the order of the text.
-/

namespace SourceAtlas

open Syntax
open Syntax.Node (Before LaidOut)

/-! ## What a node records -/

/-- The references that events make if no node is claimed before, each with the node it is of. -/
def made (source : Array UInt8) (es : List Event) : List (Node × Reference) :=
  es.filterMap fun e => (e.reference? source).map (e.node, ·)

/-- The references that a node records when the walk comes to it: that to itself, or those to the
    names that it binds. -/
def recordsOf (source : Array UInt8) (n : Node) : List (Node × Reference) :=
  made source (eventsOf source n)

theorem attributedAfter_sublist (source : Array UInt8) (done es : List Event) :
    (attributedAfter source done es).Sublist (made source es) := by
  induction es generalizing done with
  | nil => exact .slnil
  | cons e es ih =>
    have hcons : made source (e :: es) =
        (e.reference? source).toList.map (e.node, ·) ++ made source es := by
      rw [made, List.filterMap_cons, made]
      cases e.reference? source <;> rfl
    rw [attributedAfter, hcons]
    refine List.Sublist.append ?_ (ih (done ++ [e]))
    split
    · exact List.nil_sublist _
    · exact List.Sublist.refl _

/-- The references of a tree are among those that its nodes record, in the order of the walk. -/
theorem attributions_sublist (source : Array UInt8) (root : Node) :
    (attributions source root).Sublist (root.nodes.flatMap (recordsOf source)) := by
  have hmade : made source (events source root) = root.nodes.flatMap (recordsOf source) := by
    rw [made, events_eq, List.filterMap_flatMap]
    rfl
  exact hmade ▸ attributedAfter_sublist source [] (events source root)

/-! ## The names that a node binds -/

/-- The nodes that claims bind. -/
def boundNodes (cs : List Claim) : List Node :=
  cs.filterMap fun c => c.binding.map fun _ => c.node

section BoundNodes

variable {kind : RefKind} {source : Option String}

theorem boundNodes_append (cs ds : List Claim) :
    boundNodes (cs ++ ds) = boundNodes cs ++ boundNodes ds := List.filterMap_append

theorem boundNodes_flatMap {α : Type} (l : List α) (f : α → List Claim) :
    boundNodes (l.flatMap f) = l.flatMap fun a => boundNodes (f a) := List.filterMap_flatMap

theorem boundNodes_map_bind (ns : List Node) :
    boundNodes (ns.map (Claim.bind kind source)) = ns := by
  rw [boundNodes, List.filterMap_map]
  exact List.filterMap_some

theorem boundNodes_map_mark (ns : List Node) : boundNodes (ns.map Claim.mark) = [] := by
  rw [boundNodes, List.filterMap_map, List.filterMap_eq_nil_iff]
  exact fun _ _ => rfl

theorem boundNodes_subset {n : Node} {cs : List Claim} (h : ∀ c ∈ cs, c.Upon n) :
    boundNodes cs ⊆ n.nodes := by
  intro m hm
  obtain ⟨c, hc, hm⟩ := List.mem_filterMap.mp hm
  obtain ⟨b, -, rfl⟩ := Option.map_eq_some_iff.mp hm
  exact (h c hc).reaches

/-- What claims on parts of a node bind is in order if it is for each part. -/
theorem pairwise_boundNodes_flatMap {n : Node} (h : n.LaidOut) {parts : List Node}
    (hparts : parts.Sublist n.namedChildren) {f : Node → List Claim}
    (hupon : ∀ t, ∀ c ∈ f t, c.Upon t)
    (heach : ∀ t, t.LaidOut → (boundNodes (f t)).Pairwise Before) :
    (boundNodes (parts.flatMap f)).Pairwise Before := by
  have hlaid : ∀ t ∈ parts, t.LaidOut := fun t ht => h.of_mem_namedChildren (hparts.subset ht)
  rw [boundNodes_flatMap]
  exact LaidOut.pairwise_flatMap hlaid (h.pairwise_namedChildren.sublist hparts)
    (fun t _ => boundNodes_subset (hupon t)) fun t ht => heach t (hlaid t ht)

end BoundNodes

namespace Claim

variable {n : Node} {kind : RefKind} {source : Option String}

theorem pairwise_ofSpecifier :
    (boundNodes (ofSpecifier (bind kind source) n)).Pairwise Before := by
  unfold ofSpecifier
  split
  · -- The name is only marked, so there is one node at most.
    cases n.child? "name" <;> exact List.pairwise_singleton _ _
  · cases n.child? "name" with
    | none => exact .nil
    | some name => exact List.pairwise_singleton _ _

theorem pairwise_ofSpecifiers (hk : kind ≠ .usage) (h : n.LaidOut) (clauseKind : String) :
    (boundNodes (ofSpecifiers clauseKind (bind kind source) n)).Pairwise Before :=
  pairwise_boundNodes_flatMap h List.filter_sublist
    (fun _ _ hc => (within_of_mem_ofSpecifier hk hc).upon) fun _ _ => pairwise_ofSpecifier

theorem pairwise_ofIdentifiers (h : n.LaidOut) :
    (boundNodes (ofIdentifiers (bind kind source) n)).Pairwise Before := by
  rw [ofIdentifiers, boundNodes_map_bind]
  exact h.pairwise_namedChildren.sublist List.filter_sublist

theorem pairwise_ofImportPart (h : n.LaidOut) :
    (boundNodes (ofImportPart source n)).Pairwise Before := by
  unfold ofImportPart
  split
  · exact List.pairwise_singleton _ _
  · split
    · exact pairwise_ofIdentifiers h
    · split
      · exact pairwise_ofSpecifiers (by decide) h _
      · exact .nil

theorem pairwise_ofImportedClause {text : Array UInt8} (h : n.LaidOut) :
    (boundNodes (ofImportedClause text source n)).Pairwise Before := by
  unfold ofImportedClause
  split
  · exact pairwise_boundNodes_flatMap h (List.Sublist.refl _)
      (fun _ _ hc => upon_of_mem_ofImportPart hc) fun _ ht => pairwise_ofImportPart ht
  · split
    · exact (pairwise_ofIdentifiers h).sublist ((List.take_sublist _ _).filterMap _)
    · exact .nil

theorem pairwise_ofImport {text : Array UInt8} (h : n.LaidOut) :
    (boundNodes (ofImport text n)).Pairwise Before :=
  pairwise_boundNodes_flatMap h (List.Sublist.refl _)
    (fun _ _ hc => (within_of_mem_ofImportedClause hc).upon)
    fun _ ht => pairwise_ofImportedClause ht

theorem pairwise_ofExportedDeclaration (h : n.LaidOut) :
    (boundNodes (ofExportedDeclaration n)).Pairwise Before := by
  unfold ofExportedDeclaration
  split
  · rw [boundNodes_flatMap]
    simp only [boundNodes_map_bind]
    refine LaidOut.pairwise_flatMap
      (fun d hd => h.of_mem_namedChildren (List.mem_of_mem_filter hd))
      (h.pairwise_namedChildren.sublist List.filter_sublist)
      (fun d _ m hm => Node.mem_nodes_of_mem_descendants (Node.mem_descendants_of_boundUnder hm))
      fun d hd => (h.of_mem_namedChildren (List.mem_of_mem_filter hd)).pairwise_boundUnder _
  · cases n.child? "name" with
    | none => exact .nil
    | some name => exact List.pairwise_singleton _ _

theorem pairwise_ofExportedClause (h : n.LaidOut) :
    (boundNodes (ofExportedClause n)).Pairwise Before := by
  unfold ofExportedClause
  split
  · exact pairwise_ofSpecifiers (by decide) h _
  · split
    · exact pairwise_ofIdentifiers h
    · exact .nil

theorem pairwise_ofDeclaration {text : Array UInt8} (h : n.LaidOut) :
    (boundNodes (ofDeclaration text n)).Pairwise Before := by
  unfold ofDeclaration
  split
  · rw [boundNodes_map_bind]
    exact h.pairwise_boundUnder _
  · have hparameters : boundNodes (if n.kind == "function_declaration" ||
        n.kind == "generator_function_declaration" then n.parameters.map mark else []) = [] := by
      split
      · exact boundNodes_map_mark _
      · rfl
    rw [boundNodes_append, hparameters, List.nil_append]
    cases n.child? "name" with
    | none => exact .nil
    | some name => exact List.pairwise_singleton _ _

end Claim

/-- An export statement with both a declaration and clauses. -/
def Mixed (n : Node) : Prop :=
  n.kind = "export_statement" ∧ (n.child? "declaration").isSome ∧
    ∃ c ∈ n.namedChildren, c.kind = "export_clause" ∨ c.kind = "namespace_export"

theorem pairwise_ofExport {n : Node} (h : n.LaidOut) (hkind : n.kind = "export_statement")
    (hmixed : ¬ Mixed n) : (boundNodes (Claim.ofExport n)).Pairwise Before := by
  have hclauses := pairwise_boundNodes_flatMap h (List.Sublist.refl _)
    (fun _ _ hc => (Claim.within_of_mem_ofExportedClause hc).upon)
    fun _ ht => Claim.pairwise_ofExportedClause ht
  rw [Claim.ofExport_eq]
  cases hd : n.child? "declaration" with
  | none => exact hclauses
  | some d =>
    have hnone : n.namedChildren.flatMap Claim.ofExportedClause = [] := by
      rw [List.flatMap_eq_nil_iff]
      intro c hc
      have hno : ¬ (c.kind = "export_clause" ∨ c.kind = "namespace_export") := fun hk =>
        hmixed ⟨hkind, by rw [hd]; rfl, c, hc, hk⟩
      rw [not_or] at hno
      unfold Claim.ofExportedClause
      rw [if_neg (mt beq_iff_eq.mp hno.1), if_neg (mt beq_iff_eq.mp hno.2)]
    rw [hnone, List.append_nil]
    exact Claim.pairwise_ofExportedDeclaration (h.of_child? hd)

/-- The names that one node binds are in the order of the text. -/
theorem pairwise_boundNodes_claimsOf (source : Array UInt8) {n : Node} (h : n.LaidOut)
    (hmixed : ¬ Mixed n) : (boundNodes (claimsOf source n)).Pairwise Before := by
  unfold claimsOf
  split
  · exact Claim.pairwise_ofImport h
  · rename_i hclass
    exact pairwise_ofExport h (NodeClass.of_eq_export_iff.mp hclass) hmixed
  · exact Claim.pairwise_ofDeclaration h
  · exact .nil
  · exact .nil

/-! ## The order of the text -/

/-- The second reference starts no earlier in the text, and is on no earlier line. -/
def InOrder (p q : Node × Reference) : Prop :=
  p.1.label.start ≤ q.1.label.start ∧ p.2.line ≤ q.2.line

/-- A node binds the name of a reference. -/
def Binds (source : Array UInt8) (a : Node) (p : Node × Reference) : Prop :=
  ∃ c ∈ claimsOf source a, c.node = p.1 ∧ c.binding = some (p.2.kind, p.2.source)

/-- The first reference is recorded ahead: a node binds its name, and the second is recorded below
    that node, or by the node itself where it exports in two ways. -/
def Ahead (source : Array UInt8) (root : Node) (p q : Node × Reference) : Prop :=
  ∃ a ∈ root.nodes, Binds source a p ∧
    ((∃ b ∈ a.descendants, q ∈ recordsOf source b) ∨ (Mixed a ∧ q ∈ recordsOf source a))

section Order

variable {source : Array UInt8} {root a : Node} {p q : Node × Reference}

/-- A node records a usage of itself, or what it binds. -/
theorem mem_recordsOf_cases (h : p ∈ recordsOf source a) :
    p.2.line = p.1.line ∧
      ((p.1 = a ∧ p.2.kind = .usage ∧ p.2.source = none) ∨ Binds source a p) := by
  obtain ⟨e, he, hp⟩ := List.mem_filterMap.mp h
  obtain ⟨r, hr, rfl⟩ := Option.map_eq_some_iff.mp hp
  rcases eventsOf_cases source a with ⟨-, -, hof⟩ | ⟨-, hof⟩ <;> rw [hof] at he
  · rw [List.mem_singleton.mp he] at hr ⊢
    obtain ⟨hkind, hsource, hline⟩ := of_mem_reference? hr
    exact ⟨hline, Or.inl ⟨rfl, hkind, hsource⟩⟩
  · obtain ⟨c, hc, rfl⟩ := List.mem_map.mp he
    obtain ⟨b, hb, hr⟩ := Option.bind_eq_some_iff.mp hr
    obtain ⟨hkind, hsource, hline⟩ := of_mem_reference? hr
    refine ⟨hline, Or.inr ⟨c, hc, rfl, ?_⟩⟩
    rw [hb, hkind, hsource]

theorem mem_nodes_of_mem_recordsOf (h : p ∈ recordsOf source a) : p.1 ∈ a.nodes := by
  rcases (mem_recordsOf_cases h).2 with ⟨hself, -⟩ | ⟨c, hc, hnode, -⟩
  · exact hself ▸ a.self_mem_nodes
  · exact hnode ▸ node_mem_of_mem_claimsOf hc

theorem Binds.kind_ne_usage (h : Binds source a p) : p.2.kind ≠ .usage := by
  obtain ⟨c, hc, -, hbinding⟩ := h
  exact (within_of_mem_claimsOf hc).kind _ hbinding

theorem map_fst_made_sublist (source : Array UInt8) (cs : List Claim) :
    ((made source (cs.map .claim)).map Prod.fst).Sublist (boundNodes cs) := by
  induction cs with
  | nil => exact .slnil
  | cons c cs ih =>
    have hmade : made source ((c :: cs).map .claim) =
        made source [.claim c] ++ made source (cs.map .claim) := List.filterMap_append (l := [_])
    have hbound : boundNodes (c :: cs) = boundNodes [c] ++ boundNodes cs :=
      boundNodes_append [c] cs
    rw [hmade, hbound, List.map_append]
    refine List.Sublist.append ?_ ih
    obtain ⟨n, binding⟩ := c
    cases binding with
    | none => exact List.Sublist.refl _
    | some b =>
      show ((made source [.claim ⟨n, some b⟩]).map Prod.fst).Sublist [n]
      unfold made Event.reference?
      cases hr : n.reference? source b.1 b.2 <;> simp [hr, Event.node]

variable (h : root.LaidOut)

include h

theorem inOrder_of_start_le (hp : p.1 ∈ root.nodes) (hq : q.1 ∈ root.nodes)
    (hlinep : p.2.line = p.1.line) (hlineq : q.2.line = q.1.line)
    (hstart : p.1.label.start ≤ q.1.label.start) : InOrder p q := by
  refine ⟨hstart, ?_⟩
  rw [hlinep, hlineq]
  exact Nat.succ_le_succ (h.rows p.1 hp q.1 hq hstart)

/-- What one node records is in order, unless it exports in two ways. -/
theorem pairwise_inOrder_recordsOf (source : Array UInt8) (ha : a ∈ root.nodes)
    (hmixed : ¬ Mixed a) : (recordsOf source a).Pairwise InOrder := by
  rcases eventsOf_cases source a with ⟨-, -, hof⟩ | ⟨-, hof⟩
  · -- An identifier records itself at most.
    unfold recordsOf made
    rw [hof]
    cases hr : (Event.mention a).reference? source <;> simp [hr]
  · have hbefore : ((recordsOf source a).map Prod.fst).Pairwise Before := by
      rw [recordsOf, hof]
      exact (pairwise_boundNodes_claimsOf source (h.of_mem ha) hmixed).sublist
        (map_fst_made_sublist source _)
    refine (List.pairwise_map.mp hbefore).imp_of_mem fun {p q} hp hq hpq => ?_
    have hpin := Node.nodes_subset ha (mem_nodes_of_mem_recordsOf hp)
    have hqin := Node.nodes_subset ha (mem_nodes_of_mem_recordsOf hq)
    exact inOrder_of_start_le h hpin hqin (mem_recordsOf_cases hp).1 (mem_recordsOf_cases hq).1
      (Nat.le_trans (h.spans p.1 hpin) hpq)

theorem pairwise_recordsOf (source : Array UInt8) (ha : a ∈ root.nodes) :
    (recordsOf source a).Pairwise fun p q => InOrder p q ∨ Ahead source root p q := by
  by_cases hmixed : Mixed a
  · -- What the declaration binds may come before or after the clauses.
    refine List.pairwise_of_forall_mem_list fun p hp q hq => ?_
    rcases (mem_recordsOf_cases hp).2 with ⟨hself, -⟩ | hbinds
    · have hqa := mem_nodes_of_mem_recordsOf hq
      exact Or.inl (inOrder_of_start_le h (hself ▸ ha) (Node.nodes_subset ha hqa)
        (mem_recordsOf_cases hp).1 (mem_recordsOf_cases hq).1
        (hself ▸ ((h.of_mem ha).within_nodes hqa).1))
    · exact Or.inr ⟨a, ha, hbinds, Or.inr ⟨hmixed, hq⟩⟩
  · exact (pairwise_inOrder_recordsOf h source ha hmixed).imp Or.inl

theorem pairwise_attributions (source : Array UInt8) :
    (attributions source root).Pairwise fun p q => InOrder p q ∨ Ahead source root p q := by
  refine List.Pairwise.sublist (attributions_sublist source root) ?_
  rw [List.pairwise_flatMap]
  refine ⟨fun a ha => pairwise_recordsOf h source ha, ?_⟩
  refine h.pairwise_nodes.imp_of_mem fun {a b} ha hb hab p hp q hq => ?_
  obtain ⟨hlinep, hcase⟩ := mem_recordsOf_cases hp
  obtain ⟨hlineq, -⟩ := mem_recordsOf_cases hq
  have hpa := mem_nodes_of_mem_recordsOf hp
  have hqb := mem_nodes_of_mem_recordsOf hq
  have hin := inOrder_of_start_le h (Node.nodes_subset ha hpa) (Node.nodes_subset hb hqb) hlinep
    hlineq
  rcases hab with hbelow | hbefore
  · rcases hcase with ⟨hself, -⟩ | hbinds
    · have hqa := Node.nodes_subset (Node.mem_nodes_of_mem_descendants hbelow) hqb
      exact Or.inl (hin (hself ▸ ((h.of_mem ha).within_nodes hqa).1))
    · exact Or.inr ⟨a, ha, hbinds, Or.inl ⟨b, hbelow, hq⟩⟩
  · have hpq := (h.of_mem ha).before_of_before (h.of_mem hb) hbefore hpa hqb
    exact Or.inl (hin (Nat.le_trans (h.spans p.1 (Node.nodes_subset ha hpa)) hpq))

omit h in
/-- The references of a tree are of its nodes, on their lines. -/
theorem mem_attributions (hp : p ∈ attributions source root) :
    p.1 ∈ root.nodes ∧ p.2.line = p.1.line := by
  obtain ⟨a, ha, hp⟩ := List.mem_flatMap.mp ((attributions_sublist source root).subset hp)
  exact ⟨Node.nodes_subset ha (mem_nodes_of_mem_recordsOf hp), (mem_recordsOf_cases hp).1⟩

/-- **References in the order of the text.** The references of a tree that is laid out in a text
    come as its nodes record them, each node before those below it. So they stand in the order of
    the places of their nodes, and of their lines, save where a name is recorded ahead: a name that
    a statement or declaration binds may stand before what is recorded below that statement or
    declaration. The names that it binds are in order among themselves unless it exports in two
    ways, and so are all usages. -/
theorem attributions_ordered (source : Array UInt8) :
    referencesOf source root = (attributions source root).map Prod.snd ∧
      (∀ p ∈ attributions source root, p.1 ∈ root.nodes ∧ p.2.line = p.1.line) ∧
      (attributions source root).Sublist (root.nodes.flatMap (recordsOf source)) ∧
      ((attributions source root).Pairwise fun p q => InOrder p q ∨ Ahead source root p q) ∧
      (∀ a ∈ root.nodes, ¬ Mixed a → (recordsOf source a).Pairwise InOrder) ∧
      ((attributions source root).filter (·.2.kind = .usage)).Pairwise InOrder := by
  refine ⟨referencesOf_eq_attributions source root, fun p hp => mem_attributions hp,
    attributions_sublist source root, pairwise_attributions h source,
    fun a ha hmixed => pairwise_inOrder_recordsOf h source ha hmixed, ?_⟩
  refine ((pairwise_attributions h source).sublist List.filter_sublist).imp_of_mem
    fun {p q} hp _ hpq => hpq.resolve_right ?_
  rintro ⟨a, -, hbinds, -⟩
  exact hbinds.kind_ne_usage (of_decide_eq_true (List.mem_filter.mp hp).2)

end Order

/-! ## A default in a pattern -/

/-- The text of a declaration with a default between two names. -/
def defaultText : Array UInt8 :=
  (Text.Utf8.encode "const \x7b\n a = b,\n c \x7d = d;".toList).toArray

/-- The tree of that text. -/
def defaultTree : Node :=
  .mk ⟨"program", true, 0, 25, 0, none⟩ [
    .mk ⟨"lexical_declaration", true, 0, 25, 0, none⟩ [
      .mk ⟨"const", false, 0, 5, 0, some "kind"⟩ [],
      .mk ⟨"variable_declarator", true, 6, 24, 0, none⟩ [
        .mk ⟨"object_pattern", true, 6, 20, 0, some "name"⟩ [
          .mk ⟨"\x7b", false, 6, 7, 0, none⟩ [],
          .mk ⟨"object_assignment_pattern", true, 9, 14, 1, none⟩ [
            .mk ⟨"shorthand_property_identifier_pattern", true, 9, 10, 1, some "left"⟩ [],
            .mk ⟨"=", false, 11, 12, 1, none⟩ [],
            .mk ⟨"identifier", true, 13, 14, 1, some "right"⟩ []],
          .mk ⟨",", false, 14, 15, 1, none⟩ [],
          .mk ⟨"shorthand_property_identifier_pattern", true, 17, 18, 2, none⟩ [],
          .mk ⟨"\x7d", false, 19, 20, 2, none⟩ []],
        .mk ⟨"=", false, 21, 22, 2, none⟩ [],
        .mk ⟨"identifier", true, 23, 24, 2, some "value"⟩ []],
      .mk ⟨";", false, 24, 25, 2, none⟩ []]]

theorem laidOut_defaultTree : defaultTree.LaidOut where
  spans := by decide
  within := by decide
  siblings := by decide
  rows := by decide

theorem attributions_ordered_defaultTree :
    defaultTree.LaidOut ∧
      ((attributions defaultText defaultTree).Pairwise fun p q =>
        InOrder p q ∨ Ahead defaultText defaultTree p q) ∧
      (∀ a ∈ defaultTree.nodes, ¬ Mixed a → (recordsOf defaultText a).Pairwise InOrder) ∧
      ((attributions defaultText defaultTree).filter (·.2.kind = .usage)).Pairwise InOrder := by
  obtain ⟨-, -, -, hordered, hbound, husages⟩ :=
    attributions_ordered laidOut_defaultTree defaultText
  exact ⟨laidOut_defaultTree, hordered, hbound, husages⟩

/-- The name behind the default is recorded before the default. -/
theorem referencesOf_defaultTree :
    defaultTree.LaidOut ∧
      referencesOf defaultText defaultTree =
        [⟨"a", .declaration, 2, none⟩, ⟨"c", .declaration, 3, none⟩, ⟨"b", .usage, 2, none⟩,
          ⟨"d", .usage, 3, none⟩] ∧
      ¬ ((referencesOf defaultText defaultTree).Pairwise fun r s => r.line ≤ s.line) := by
  have hrefs : referencesOf defaultText defaultTree =
      [⟨"a", .declaration, 2, none⟩, ⟨"c", .declaration, 3, none⟩, ⟨"b", .usage, 2, none⟩,
        ⟨"d", .usage, 3, none⟩] := by
    rw [referencesOf_eq_attributions]
    rfl
  refine ⟨laidOut_defaultTree, hrefs, ?_⟩
  rw [hrefs]
  decide

end SourceAtlas
