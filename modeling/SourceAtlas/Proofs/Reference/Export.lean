import SourceAtlas.Proofs.Reference.Record
import SourceAtlas.Proofs.Syntax.Pattern

/-!
# Exported declarations

An export statement comes before the declaration that it exports, so its claims on the declared
names are the first ones, and these names are exports and no declarations. It looks for the names
in the declaration that stands under it, though, and not in what that declaration wraps: the names
of an ambient declaration are recorded as if it were not exported.

Results:
* `recorded_of_exported`: a declared name is recorded once, as an export, where the declaration
  itself is exported, and never as one where it is wrapped in an ambient declaration.
-/

namespace SourceAtlas

open Syntax

/-! ## Declared names -/

/-- The kinds of declarations that hold declarators. -/
def declaratorLists : List String := ["lexical_declaration", "variable_declaration"]

/-- The kinds of declarations that have one name. -/
def namedDeclarations : List String := ["function_declaration", "generator_function_declaration",
  "function_signature", "class_declaration", "abstract_class_declaration",
  "interface_declaration", "type_alias_declaration", "enum_declaration"]

/-- The declaration `d` declares the name `n`: it is the name of the declaration, or it is bound by
    the pattern of one of its declarators. -/
inductive Declares : Node → Node → Prop
  | variable {d v p n : Node} : d.kind ∈ declaratorLists → v ∈ d.namedChildren →
      v.kind = "variable_declarator" → v.child? "name" = some p → p.Binds n → Declares d n
  | named {d n : Node} : d.kind ∈ namedDeclarations → d.child? "name" = some n → Declares d n

theorem Declares.descends {d n : Node} (h : Declares d n) : n ∈ d.descendants := by
  cases h with
  | «variable» _ hv _ hp hn =>
    exact Node.mem_descendants_trans (Node.mem_descendants_of_namedChildren hv)
      (Node.mem_nodes_of_mem_descendants (Node.mem_descendants_of_boundUnder
        (Node.mem_boundUnder_iff.mpr ⟨_, hp, Node.mem_bindings_iff.mpr hn⟩)))
  | named _ hn => exact Node.mem_descendants_of_child? hn

/-! ## First claims -/

section FirstClaims

variable {source : Array UInt8} {root n : Node} (h : (root.nodes.map Node.key).Nodup)

include h

/-- Of claims that bind names in one way, the first on a name binds it in that way. -/
theorem find?_bind {names : List Node} (hin : names ⊆ root.nodes) (hn : n ∈ names)
    (kind : RefKind) (from? : Option String) :
    (names.map (Claim.bind kind from?)).find? (fun c => c.node.key == n.key) =
      some (.bind kind from? n) := by
  rw [List.find?_map, Option.map_eq_some_iff]
  obtain ⟨p, hp⟩ : ∃ p, p = (fun c : Claim => c.node.key == n.key) ∘ Claim.bind kind from? :=
    ⟨_, rfl⟩
  have hpm (m : Node) : p m ↔ m.key = n.key := by
    rw [hp]
    exact beq_iff_eq
  rw [← hp]
  cases hfind : names.find? p with
  | none =>
    rw [List.find?_eq_none] at hfind
    exact absurd ((hpm n).mpr rfl) (hfind n hn)
  | some m =>
    have hkey := (hpm m).mp (List.find?_some hfind)
    obtain rfl := List.inj_on_of_nodup_map h (hin (List.mem_of_find?_eq_some hfind)) (hin hn) hkey
    exact ⟨m, rfl, rfl⟩

/-- Claims of the root come before all others. -/
theorem recorded_of_own {kind : RefKind} {from? : Option String} (hn : n ∈ root.nodes)
    (hfirst : (claimsOf source root).find? (fun c => c.node.key == n.key) =
      some (.bind kind from? n)) :
    recorded source root n = (n.reference? source kind from?).toList := by
  refine recorded_of_bind h hn ?_
  rw [claimsIn, Node.nodes_eq, List.flatMap_cons, List.find?_append, hfirst]
  rfl

end FirstClaims

/-! ## Exported directly -/

/-- The names that an export statement looks for in a declaration. -/
def exportedNames (d : Node) : List Node :=
  if d.kind == "lexical_declaration" || d.kind == "variable_declaration" then
    (d.namedChildren.filter (·.kind == "variable_declarator")).flatMap (·.boundUnder "name")
  else (d.child? "name").toList

theorem ofExportedDeclaration_eq (d : Node) :
    Claim.ofExportedDeclaration d = (exportedNames d).map (Claim.bind .export none) := by
  unfold Claim.ofExportedDeclaration exportedNames
  split
  · rw [List.map_flatMap]
  · cases d.child? "name" <;> rfl

theorem Declares.mem_exportedNames {d n : Node} (h : Declares d n) : n ∈ exportedNames d := by
  unfold exportedNames
  cases h with
  | «variable» hd hv hkind hp hn =>
    have hlist : (d.kind == "lexical_declaration" || d.kind == "variable_declaration") = true := by
      simpa [declaratorLists] using hd
    rw [if_pos hlist, List.mem_flatMap]
    exact ⟨_, List.mem_filter.mpr ⟨hv, beq_iff_eq.mpr hkind⟩,
      Node.mem_boundUnder_iff.mpr ⟨_, hp, Node.mem_bindings_iff.mpr hn⟩⟩
  | named hd hn =>
    have hlist : (d.kind == "lexical_declaration" || d.kind == "variable_declaration") = false := by
      revert hd
      generalize d.kind = kind
      decide +revert
    rw [if_neg (Bool.not_eq_true _ ▸ hlist), hn]
    exact List.mem_singleton_self _

theorem claimsOf_export (source : Array UInt8) {s : Node} (hkind : s.kind = "export_statement") :
    claimsOf source s = Claim.ofExport s := by
  unfold claimsOf
  rw [hkind]
  rfl

section Exported

variable {source : Array UInt8} {root s n : Node} (h : (root.nodes.map Node.key).Nodup)

include h

/-- The first claim of an export statement on a name that it looks for is an export. -/
theorem find?_claimsOf_export (hs : s ∈ root.nodes) (hkind : s.kind = "export_statement")
    {d : Node} (hd : s.child? "declaration" = some d) (hn : n ∈ exportedNames d) :
    (claimsOf source s).find? (fun c => c.node.key == n.key) = some (.bind .export none n) := by
  have hin : exportedNames d ⊆ root.nodes := by
    intro m hm
    have hwithin : (Claim.bind .export none m).Within d :=
      Claim.within_of_mem_ofExportedDeclaration
        (ofExportedDeclaration_eq d ▸ List.mem_map_of_mem hm)
    exact Node.nodes_subset hs (Node.mem_nodes_of_mem_descendants
      (Node.mem_descendants_trans (Node.mem_descendants_of_child? hd)
        (Node.mem_nodes_of_mem_descendants hwithin.descends)))
  rw [claimsOf_export source hkind, Claim.ofExport, hd, Option.map_some, Option.getD_some,
    ofExportedDeclaration_eq, List.find?_append, find?_bind h hin hn, Option.some_or]

end Exported

/-! ## Wrapped in an ambient declaration -/

section Wrapped

variable {source : Array UInt8} {root s w d n : Node} (h : (root.nodes.map Node.key).Nodup)

include h

/-- An export statement makes no claim on what stands below a part of an ambient declaration. -/
theorem unclaimed_of_ambient (hs : s ∈ root.nodes) (hkind : s.kind = "export_statement")
    (hw : s.child? "declaration" = some w) (hambient : w.kind = "ambient_declaration")
    (hd : d ∈ w.children) (hn : n ∈ d.descendants) :
    ∀ c ∈ claimsOf source s, c.node ≠ n := by
  have hdistinct := h.of_map
  have hws := List.mem_of_find?_eq_some hw
  have hwroot := Node.nodes_subset hs (Node.mem_nodes_of_mem_children hws)
  have hnw : n ∈ w.nodes := Node.mem_nodes_of_mem_descendants
    (Node.mem_descendants_trans (Node.mem_descendants_of_mem_children hd)
      (Node.mem_nodes_of_mem_descendants hn))
  rw [claimsOf_export source hkind, Claim.ofExport_eq, hw, Option.map_some, Option.getD_some]
  rintro c hc rfl
  rcases List.mem_append.mp hc with hc | hc
  · -- The name of the ambient declaration itself is a child of it, and `n` stands deeper.
    have hname : Claim.ofExportedDeclaration w =
        ((w.child? "name").map (Claim.bind .export none)).toList := by
      unfold Claim.ofExportedDeclaration
      rw [hambient]
      rfl
    rw [hname] at hc
    obtain ⟨m, hm, rfl⟩ := Option.map_eq_some_iff.mp (Option.mem_toList.mp hc)
    obtain rfl := Node.eq_of_mem_nodes_of_children (Node.nodup_nodes hdistinct hwroot) hd
      (List.mem_of_find?_eq_some hm) (Node.mem_nodes_of_mem_descendants hn) m.self_mem_nodes
    exact Node.not_mem_descendants_self _ hn
  · -- Clauses stand beside the ambient declaration.
    obtain ⟨x, hx, hc⟩ := List.mem_flatMap.mp hc
    obtain rfl := Node.eq_of_mem_nodes_of_children (Node.nodup_nodes hdistinct hs) hws
      (List.mem_of_mem_filter hx) hnw (Claim.within_of_mem_ofExportedClause hc).upon.reaches
    unfold Claim.ofExportedClause at hc
    rw [hambient] at hc
    cases hc

/-- What stands below a part of an exported ambient declaration is recorded as it is in that part
    alone. -/
theorem recorded_of_ambient (hs : s ∈ root.nodes) (hkind : s.kind = "export_statement")
    (hfree : UnclaimedAbove source root s n) (hw : s.child? "declaration" = some w)
    (hambient : w.kind = "ambient_declaration") (hd : d ∈ w.children) (hn : n ∈ d.descendants) :
    recorded source root n = recorded source d n := by
  have hdistinct := h.of_map
  have hws := List.mem_of_find?_eq_some hw
  have hwroot := Node.nodes_subset hs (Node.mem_nodes_of_mem_children hws)
  have hdw := Node.mem_nodes_of_mem_children hd
  have hds : d ∈ s.descendants :=
    Node.mem_descendants_trans (Node.mem_descendants_of_mem_children hws) hdw
  refine recorded_subtree h (Node.nodes_subset hwroot hdw)
    (Node.mem_nodes_of_mem_descendants hn) fun a ha hda => ?_
  rcases Node.mem_nodes_or_mem_descendants hdistinct ha hs (Node.mem_nodes_of_mem_descendants hda)
    (Node.mem_nodes_of_mem_descendants hds) with has | hsa
  · rcases Node.mem_nodes_iff.mp has with rfl | has
    · exact unclaimed_of_ambient h hs hkind hw hambient hd hn
    · -- Between the statement and the part there is only the ambient declaration.
      obtain ⟨x, hx, hax⟩ := Node.mem_descendants_iff.mp has
      obtain rfl := Node.eq_of_mem_nodes_of_children (Node.nodup_nodes hdistinct hs) hws hx hdw
        (Node.nodes_subset hax (Node.mem_nodes_of_mem_descendants hda))
      obtain rfl := Node.eq_of_child_mem_descendants (Node.nodup_nodes hdistinct hwroot) hd hax hda
      intro c hc
      unfold claimsOf at hc
      rw [hambient] at hc
      cases hc
  · exact hfree a ha hsa

end Wrapped

/-! ## Declared -/

/-- A declaration that has one name binds names as declarations only. -/
theorem kind_of_mem_claimsOf_named {source : Array UInt8} {d : Node} {c : Claim}
    {b : RefKind × Option String} (hd : d.kind ∈ namedDeclarations) (hc : c ∈ claimsOf source d)
    (hb : c.binding = some b) : b.1 = .declaration := by
  have hclass : (NodeClass.of d.kind = .declaration ∨ NodeClass.of d.kind = .other) ∧
      (d.kind == "variable_declarator") = false := by
    revert hd
    generalize d.kind = kind
    decide +revert
  obtain ⟨hclass | hclass, hkind⟩ := hclass
  · unfold claimsOf Claim.ofDeclaration at hc
    rw [hclass] at hc
    dsimp only at hc
    rw [hkind] at hc
    rcases List.mem_append.mp hc with hc | hc
    · split at hc
      · obtain ⟨m, -, rfl⟩ := List.mem_map.mp hc
        cases hb
      · cases hc
    · obtain ⟨m, -, rfl⟩ := Option.map_eq_some_iff.mp (Option.mem_toList.mp hc)
      cases hb
      rfl
  · unfold claimsOf at hc
    rw [hclass] at hc
    cases hc

section Declared

variable {source : Array UInt8} {d v n : Node} (h : (d.nodes.map Node.key).Nodup)

include h

/-- A declarator's name is recorded as the declarator says, also among others. -/
theorem recorded_of_declarator (source : Array UInt8) (hd : d.kind ∈ declaratorLists)
    (hv : v ∈ d.children) (hkind : v.kind = "variable_declarator") (hn : n ∈ v.boundUnder "name") :
    ∃ kind from?, kind ≠ .export ∧
      recorded source d n = (n.reference? source kind from?).toList := by
  have hnv : n ∈ v.nodes :=
    Node.mem_nodes_of_mem_descendants (Node.mem_descendants_of_boundUnder hn)
  have hvd := Node.mem_nodes_of_mem_children hv
  have hclass : NodeClass.of d.kind = .other := by
    revert hd
    generalize d.kind = kind
    decide +revert
  have hfree : UnclaimedAbove source d v n := unclaimedAbove_of_other h hv hclass
  have hclaims : claimsOf source v = (v.boundUnder "name").map
      (Claim.bind (if (Claim.requiredModule source v).isSome then .import else .declaration)
        (Claim.requiredModule source v)) := by
    unfold claimsOf Claim.ofDeclaration
    rw [hkind]
    rfl
  refine ⟨_, _, ?_, (recorded_subtree h hvd hnv hfree).trans
    (recorded_of_own (nodup_keys_of_mem h hvd) hnv (hclaims ▸ find?_bind
      (nodup_keys_of_mem h hvd) (fun m hm => Node.mem_nodes_of_mem_descendants
        (Node.mem_descendants_of_boundUnder hm)) hn _ _))⟩
  split <;> decide

/-- The name of a declaration is recorded as a declaration, or as a usage where it is of a kind
    that claims nothing. -/
theorem kind_of_recorded_named (hd : d.kind ∈ namedDeclarations) (hn : d.child? "name" = some n)
    {r : Reference} (hr : r ∈ recorded source d n) : r.kind ≠ .export := by
  have hchild := List.mem_of_find?_eq_some hn
  have hnd := Node.mem_nodes_of_mem_children hchild
  rw [recorded_eq h hnd, Option.mem_toList] at hr
  unfold yield? at hr
  split at hr
  · rename_i c hfind
    obtain ⟨a, ha, hc⟩ := List.mem_flatMap.mp (List.mem_of_find?_eq_some hfind)
    have hbelow := (within_of_mem_claimsOf hc).descends
    have hcn : c.node = n := List.inj_on_of_nodup_map h
      (Node.nodes_subset ha (Node.mem_nodes_of_mem_descendants hbelow)) hnd
      (beq_iff_eq.mp (List.find?_some (p := fun c : Claim => c.node.key == n.key) hfind))
    obtain rfl := Node.eq_of_child_mem_descendants h.of_map hchild ha (hcn ▸ hbelow)
    obtain ⟨b, hb, hr⟩ := Option.bind_eq_some_iff.mp hr
    rw [(of_mem_reference? hr).1, kind_of_mem_claimsOf_named hd hc hb]
    decide
  · obtain ⟨-, hr⟩ := Option.ite_none_right_eq_some.mp hr
    rw [(of_mem_reference? hr).1]
    decide

end Declared

/-- **Exported names are exports.** Let nothing above an export statement make a claim on a name.
    Where the statement exports a declaration of the name, the name is recorded once, as an
    export, and as nothing else. Where the declaration is wrapped in an ambient declaration, the
    name is recorded as it is without a statement around it, and never as an export. -/
theorem recorded_of_exported (source : Array UInt8) {root s exported n : Node}
    (h : (root.nodes.map Node.key).Nodup) (hs : s ∈ root.nodes)
    (hkind : s.kind = "export_statement") (hexported : s.child? "declaration" = some exported)
    (hfree : UnclaimedAbove source root s n) (htext : n.text source ≠ "") :
    (Declares exported n →
      recorded source root n = [⟨n.text source, .export, n.line, none⟩]) ∧
    (exported.kind = "ambient_declaration" → ∀ d ∈ exported.namedChildren, Declares d n →
      recorded source root n = recorded source d n ∧
        ∀ r ∈ recorded source root n, r.kind ≠ .export) := by
  have hexported' := List.mem_of_find?_eq_some hexported
  have hroot := Node.nodes_subset hs (Node.mem_nodes_of_mem_children hexported')
  constructor
  · intro hdeclares
    have hns : n ∈ s.nodes := Node.mem_nodes_of_mem_descendants
      (Node.mem_descendants_trans (Node.mem_descendants_of_child? hexported)
        (Node.mem_nodes_of_mem_descendants hdeclares.descends))
    have hs' := nodup_keys_of_mem h hs
    rw [recorded_subtree h hs hns hfree, recorded_of_own hs' hns (find?_claimsOf_export hs'
      s.self_mem_nodes hkind hexported hdeclares.mem_exportedNames), Node.reference?,
      if_neg htext]
    rfl
  · intro hambient d hd hdeclares
    have hd := List.mem_of_mem_filter hd
    have hsame := recorded_of_ambient h hs hkind hfree hexported hambient hd hdeclares.descends
    have hd' := nodup_keys_of_mem h (Node.nodes_subset hroot (Node.mem_nodes_of_mem_children hd))
    refine ⟨hsame, fun r hr => ?_⟩
    rw [hsame] at hr
    cases hdeclares with
    | «variable» hlist hv hv' hp hn =>
      obtain ⟨kind, from?, hne, hrecorded⟩ := recorded_of_declarator hd' source hlist
        (List.mem_of_mem_filter hv) hv'
        (Node.mem_boundUnder_iff.mpr ⟨_, hp, Node.mem_bindings_iff.mpr hn⟩)
      rw [hrecorded] at hr
      rw [(of_mem_reference? (Option.mem_toList.mp hr)).1]
      exact hne
    | named hnamed hn => exact kind_of_recorded_named hd' hnamed hn hr

/-- The text of an export of what a pattern binds. -/
def patternText : Array UInt8 :=
  (Text.Utf8.encode "export const \x7ba, b: c\x7d = d".toList).toArray

/-- The name that is the value of a pair in the pattern. -/
def pairedName : Node := .mk ⟨"identifier", true, 20, 21, 0, some "value"⟩ []

/-- The pattern. -/
def exportedPattern : Node :=
  .mk ⟨"object_pattern", true, 13, 22, 0, some "name"⟩ [
    .mk ⟨"\x7b", false, 13, 14, 0, none⟩ [],
    .mk ⟨"shorthand_property_identifier_pattern", true, 14, 15, 0, none⟩ [],
    .mk ⟨",", false, 15, 16, 0, none⟩ [],
    .mk ⟨"pair_pattern", true, 17, 21, 0, none⟩ [
      .mk ⟨"property_identifier", true, 17, 18, 0, some "key"⟩ [],
      .mk ⟨":", false, 18, 19, 0, none⟩ [],
      pairedName],
    .mk ⟨"\x7d", false, 21, 22, 0, none⟩ []]

/-- The declaration that the text exports. -/
def patternDeclaration : Node :=
  .mk ⟨"lexical_declaration", true, 7, 26, 0, some "declaration"⟩ [
    .mk ⟨"const", false, 7, 12, 0, some "kind"⟩ [],
    .mk ⟨"variable_declarator", true, 13, 26, 0, none⟩ [
      exportedPattern,
      .mk ⟨"=", false, 23, 24, 0, none⟩ [],
      .mk ⟨"identifier", true, 25, 26, 0, some "value"⟩ []]]

/-- The tree of the text. -/
def patternTree : Node :=
  .mk ⟨"program", true, 0, 26, 0, none⟩ [
    .mk ⟨"export_statement", true, 0, 26, 0, none⟩ [
      .mk ⟨"export", false, 0, 6, 0, none⟩ [],
      patternDeclaration]]

theorem declares_patternDeclaration : Declares patternDeclaration pairedName := by
  have hpair : (Node.mk ⟨"pair_pattern", true, 17, 21, 0, none⟩ [
      .mk ⟨"property_identifier", true, 17, 18, 0, some "key"⟩ [],
      .mk ⟨":", false, 18, 19, 0, none⟩ [],
      pairedName]).Binds pairedName :=
    .under (show Node.patternRole _ = .passes "value" from rfl) rfl (.name rfl)
  have hpattern : exportedPattern.Binds pairedName := .among rfl (.tail _ (.head _)) hpair
  exact .variable (v := .mk ⟨"variable_declarator", true, 13, 26, 0, none⟩ _) (by decide)
    (.head _) rfl rfl hpattern

theorem recorded_of_exported_patternTree :
    (patternTree.nodes.map Node.key).Nodup ∧ Declares patternDeclaration pairedName ∧
      recorded patternText patternTree pairedName = [⟨"c", .export, 1, none⟩] := by
  have h : (patternTree.nodes.map Node.key).Nodup := by decide
  have hfree : UnclaimedAbove patternText patternTree
      (.mk ⟨"export_statement", true, 0, 26, 0, none⟩ _) pairedName :=
    unclaimedAbove_of_other h (.head _) rfl
  exact ⟨h, declares_patternDeclaration, (recorded_of_exported patternText h (.tail _ (.head _))
    rfl rfl hfree (by decide)).1 declares_patternDeclaration⟩

/-- The text of an export of an ambient declaration. -/
def ambientText : Array UInt8 := (Text.Utf8.encode "export declare const x: T".toList).toArray

/-- The name that the ambient declaration declares. -/
def ambientName : Node := .mk ⟨"identifier", true, 21, 22, 0, some "name"⟩ []

/-- The declaration in the ambient declaration. -/
def ambientPart : Node :=
  .mk ⟨"lexical_declaration", true, 15, 25, 0, none⟩ [
    .mk ⟨"const", false, 15, 20, 0, some "kind"⟩ [],
    .mk ⟨"variable_declarator", true, 21, 25, 0, none⟩ [
      ambientName,
      .mk ⟨"type_annotation", true, 22, 25, 0, some "type"⟩ [
        .mk ⟨":", false, 22, 23, 0, none⟩ [],
        .mk ⟨"type_identifier", true, 24, 25, 0, none⟩ []]]]

/-- The ambient declaration. -/
def ambientDeclaration : Node :=
  .mk ⟨"ambient_declaration", true, 7, 25, 0, some "declaration"⟩ [
    .mk ⟨"declare", false, 7, 14, 0, none⟩ [],
    ambientPart]

/-- The statement that exports it. -/
def ambientExport : Node :=
  .mk ⟨"export_statement", true, 0, 25, 0, none⟩ [
    .mk ⟨"export", false, 0, 6, 0, none⟩ [],
    ambientDeclaration]

/-- The tree of the text. -/
def ambientTree : Node := .mk ⟨"program", true, 0, 25, 0, none⟩ [ambientExport]

/-- A name that an exported ambient declaration declares is recorded as a declaration. -/
theorem recorded_ambientTree :
    (ambientTree.nodes.map Node.key).Nodup ∧ ambientExport ∈ ambientTree.nodes ∧
      UnclaimedAbove ambientText ambientTree ambientExport ambientName ∧
      ambientExport.child? "declaration" = some ambientDeclaration ∧
      ambientPart ∈ ambientDeclaration.namedChildren ∧ Declares ambientPart ambientName ∧
      recorded ambientText ambientTree ambientName = [⟨"x", .declaration, 1, none⟩] := by
  have h : (ambientTree.nodes.map Node.key).Nodup := by decide
  have hdeclares : Declares ambientPart ambientName :=
    .variable (v := .mk ⟨"variable_declarator", true, 21, 25, 0, none⟩ _) (by decide) (.head _)
      rfl rfl (.name rfl)
  exact ⟨h, .tail _ (.head _), unclaimedAbove_of_other h (.head _) rfl, rfl, .head _, hdeclares,
    by rfl⟩

end SourceAtlas
