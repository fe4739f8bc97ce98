import Mathlib.Data.Option.Basic
import SourceAtlas.Proofs.Syntax.Tree
import SourceAtlas.Reference.Claim

/-!
# Where claims lie

A statement or declaration claims nodes below it and no others, so that a walk which visits a node
before its children has come to all claims on a node before it comes to the node.

Results:
* `requiredModule_eq_some_iff`: the module that a declarator requires.
* `within_of_mem_claimsOf`: each claim of a node is on a node below it, and binds no usage.
-/

namespace SourceAtlas

open Syntax

theorem NodeClass.of_eq_import_iff {kind : String} :
    NodeClass.of kind = .import ↔ kind = "import_statement" := by
  constructor
  · intro h
    unfold NodeClass.of at h
    split at h
    · rename_i hkind
      exact beq_iff_eq.mp hkind
    · split at h
      · cases h
      · split at h
        · cases h
        · split at h <;> cases h
  · rintro rfl
    rfl

theorem NodeClass.of_eq_export_iff {kind : String} :
    NodeClass.of kind = .export ↔ kind = "export_statement" := by
  constructor
  · intro h
    unfold NodeClass.of at h
    split at h
    · cases h
    · split at h
      · rename_i hkind
        exact beq_iff_eq.mp hkind
      · split at h
        · cases h
        · split at h <;> cases h
  · rintro rfl
    rfl

/-! ## Required modules -/

/-- The call that initialises the declarator `d` requires the module `m`. -/
def Requires (source : Array UInt8) (d : Node) (m : String) : Prop :=
  ∃ call callee arguments, d.child? "value" = some call ∧ call.kind = "call_expression" ∧
    call.child? "function" = some callee ∧ callee.kind = "identifier" ∧
    callee.text source = "require" ∧ call.child? "arguments" = some arguments ∧
    Claim.literal source arguments.namedChildren.head? = some m

theorem requiredModule_eq_some_iff {source : Array UInt8} {d : Node} {m : String} :
    Claim.requiredModule source d = some m ↔ Requires source d m := by
  unfold Claim.requiredModule Requires
  simp only [Option.bind_eq_bind, Option.bind_eq_some_iff, Option.guard_eq_some', beq_iff_eq,
    Bool.and_eq_true]
  constructor
  · rintro ⟨call, hcall, -, hkind, callee, hcallee, -, ⟨hid, htext⟩, arguments, harguments, hm⟩
    exact ⟨call, callee, arguments, hcall, hkind, hcallee, hid, htext, harguments, hm⟩
  · rintro ⟨call, callee, arguments, hcall, hkind, hcallee, hid, htext, harguments, hm⟩
    exact ⟨call, hcall, (), hkind, callee, hcallee, (), ⟨hid, htext⟩, arguments, harguments, hm⟩

namespace Claim

/-- A claim on a node below `n` that does not make it a usage. -/
structure Within (n : Node) (c : Claim) : Prop where
  descends : c.node ∈ n.descendants
  kind : ∀ b ∈ c.binding, b.1 ≠ .usage

variable {n d : Node} {c : Claim}

theorem within_mark (h : d ∈ n.descendants) : (mark d).Within n := ⟨h, fun _ hb => by cases hb⟩

theorem within_bind {kind : RefKind} {source : Option String} (hk : kind ≠ .usage)
    (h : d ∈ n.descendants) : (bind kind source d).Within n :=
  ⟨h, fun _ hb => by cases hb; exact hk⟩

/-- A claim on the node `n` or on one below it that does not make it a usage. -/
structure Upon (n : Node) (c : Claim) : Prop where
  reaches : c.node ∈ n.nodes
  kind : ∀ b ∈ c.binding, b.1 ≠ .usage

theorem Within.upon (h : c.Within n) : c.Upon n :=
  ⟨Node.mem_nodes_of_mem_descendants h.descends, h.kind⟩

theorem Upon.within (h : c.Upon d) (hd : d ∈ n.descendants) : c.Within n :=
  ⟨Node.mem_descendants_trans hd h.reaches, h.kind⟩

theorem Within.mono (h : c.Within d) (hd : d ∈ n.descendants) : c.Within n := h.upon.within hd

/-! ## Specifiers and identifiers -/

section Parts

variable {kind : RefKind} {source : Option String} (hk : kind ≠ .usage)

include hk

theorem within_of_mem_ofSpecifier (h : c ∈ ofSpecifier (bind kind source) n) : c.Within n := by
  unfold ofSpecifier at h
  split at h
  · rename_i other ho
    rcases List.mem_append.mp h with h | h
    · obtain ⟨name, hn, rfl⟩ := Option.map_eq_some_iff.mp (Option.mem_toList.mp h)
      exact within_mark (Node.mem_descendants_of_child? hn)
    · rw [List.mem_singleton.mp h]
      exact within_bind hk (Node.mem_descendants_of_child? ho)
  · obtain ⟨name, hn, rfl⟩ := Option.map_eq_some_iff.mp (Option.mem_toList.mp h)
    exact within_bind hk (Node.mem_descendants_of_child? hn)

theorem within_of_mem_ofSpecifiers {clauseKind : String}
    (h : c ∈ ofSpecifiers clauseKind (bind kind source) n) : c.Within n := by
  obtain ⟨specifier, hs, hc⟩ := List.mem_flatMap.mp h
  exact (within_of_mem_ofSpecifier hk hc).mono
    (Node.mem_descendants_of_namedChildren (List.mem_of_mem_filter hs))

theorem within_of_mem_ofIdentifiers (h : c ∈ ofIdentifiers (bind kind source) n) :
    c.Within n := by
  obtain ⟨child, hchild, rfl⟩ := List.mem_map.mp h
  exact within_bind hk (Node.mem_descendants_of_namedChildren (List.mem_of_mem_filter hchild))

theorem within_of_mem_boundUnder {field : String}
    (h : c ∈ (n.boundUnder field).map (bind kind source)) : c.Within n := by
  obtain ⟨name, hn, rfl⟩ := List.mem_map.mp h
  exact within_bind hk (Node.mem_descendants_of_boundUnder hn)

theorem within_of_mem_child? {field : String}
    (h : c ∈ ((n.child? field).map (bind kind source)).toList) : c.Within n := by
  obtain ⟨name, hn, rfl⟩ := Option.map_eq_some_iff.mp (Option.mem_toList.mp h)
  exact within_bind hk (Node.mem_descendants_of_child? hn)

end Parts

/-! ## Parts of statements -/

/-- The claims of an import clause on one of its parts. -/
def ofImportPart (from? : Option String) (part : Node) : List Claim :=
  if part.kind == "identifier" then [bind .import from? part]
  else if part.kind == "namespace_import" then ofIdentifiers (bind .import from?) part
  else if part.kind == "named_imports" then
    ofSpecifiers "import_specifier" (bind .import from?) part
  else []

theorem ofImportClause_eq (from? : Option String) (clause : Node) :
    ofImportClause from? clause = clause.namedChildren.flatMap (ofImportPart from?) := rfl

/-- The claims of an import statement on one of its clauses. -/
def ofImportedClause (source : Array UInt8) (from? : Option String) (clause : Node) : List Claim :=
  if clause.kind == "import_clause" then ofImportClause from? clause
  else if clause.kind == "import_require_clause" then
    let required := (literal source (clause.child? "source")).filter (· != "")
    (ofIdentifiers (bind .import (required.or from?)) clause).take 1
  else []

theorem ofImport_eq (source : Array UInt8) (n : Node) : ofImport source n =
    n.namedChildren.flatMap (ofImportedClause source (literal source (n.child? "source"))) := rfl

/-- The claims of an export statement on one of its clauses. -/
def ofExportedClause (clause : Node) : List Claim :=
  if clause.kind == "export_clause" then
    ofSpecifiers "export_specifier" (bind .export none) clause
  else if clause.kind == "namespace_export" then ofIdentifiers (bind .export none) clause
  else []

theorem ofExport_eq (n : Node) : ofExport n =
    ((n.child? "declaration").map ofExportedDeclaration).getD [] ++
      n.namedChildren.flatMap ofExportedClause := rfl

theorem upon_of_mem_ofImportPart {from? : Option String} (h : c ∈ ofImportPart from? n) :
    c.Upon n := by
  have hk : RefKind.import ≠ .usage := by decide
  unfold ofImportPart at h
  split at h
  · rw [List.mem_singleton.mp h]
    exact ⟨n.self_mem_nodes, fun _ hb => by cases hb; exact hk⟩
  · split at h
    · exact (within_of_mem_ofIdentifiers hk h).upon
    · split at h
      · exact (within_of_mem_ofSpecifiers hk h).upon
      · cases h

theorem within_of_mem_ofImportClause {from? : Option String} (h : c ∈ ofImportClause from? n) :
    c.Within n := by
  obtain ⟨part, hpart, hc⟩ := List.mem_flatMap.mp h
  exact (upon_of_mem_ofImportPart hc).within (Node.mem_descendants_of_namedChildren hpart)

theorem within_of_mem_ofImportedClause {source : Array UInt8} {from? : Option String}
    (h : c ∈ ofImportedClause source from? n) : c.Within n := by
  unfold ofImportedClause at h
  split at h
  · exact within_of_mem_ofImportClause h
  · split at h
    · exact within_of_mem_ofIdentifiers (by decide) (List.mem_of_mem_take h)
    · cases h

theorem within_of_mem_ofExportedClause (h : c ∈ ofExportedClause n) : c.Within n := by
  have hk : RefKind.export ≠ .usage := by decide
  unfold ofExportedClause at h
  split at h
  · exact within_of_mem_ofSpecifiers hk h
  · split at h
    · exact within_of_mem_ofIdentifiers hk h
    · cases h

/-! ## Statements and declarations -/

theorem within_of_mem_ofImport {source : Array UInt8} (h : c ∈ ofImport source n) :
    c.Within n := by
  obtain ⟨clause, hclause, hc⟩ := List.mem_flatMap.mp h
  exact (within_of_mem_ofImportedClause hc).mono (Node.mem_descendants_of_namedChildren hclause)

theorem within_of_mem_ofExportedDeclaration (h : c ∈ ofExportedDeclaration n) : c.Within n := by
  have hk : RefKind.export ≠ .usage := by decide
  unfold ofExportedDeclaration at h
  split at h
  · obtain ⟨declarator, hd, hc⟩ := List.mem_flatMap.mp h
    exact (within_of_mem_boundUnder hk hc).mono
      (Node.mem_descendants_of_namedChildren (List.mem_of_mem_filter hd))
  · exact within_of_mem_child? hk h

theorem within_of_mem_ofExport (h : c ∈ ofExport n) : c.Within n := by
  rw [ofExport_eq] at h
  rcases List.mem_append.mp h with h | h
  · cases hd : n.child? "declaration" with
    | none =>
      rw [hd] at h
      cases h
    | some d =>
      rw [hd] at h
      exact (within_of_mem_ofExportedDeclaration h).mono (Node.mem_descendants_of_child? hd)
  · obtain ⟨clause, hclause, hc⟩ := List.mem_flatMap.mp h
    exact (within_of_mem_ofExportedClause hc).mono (Node.mem_descendants_of_namedChildren hclause)

theorem within_of_mem_ofDeclaration {source : Array UInt8} (h : c ∈ ofDeclaration source n) :
    c.Within n := by
  unfold ofDeclaration at h
  split at h
  · refine within_of_mem_boundUnder ?_ h
    split <;> decide
  · rcases List.mem_append.mp h with h | h
    · split at h
      · obtain ⟨p, hp, rfl⟩ := List.mem_map.mp h
        exact within_mark (Node.mem_descendants_of_parameters hp)
      · cases h
    · exact within_of_mem_child? (by decide) h

end Claim

/-- A node claims nodes below it, and makes none of them a usage. -/
theorem within_of_mem_claimsOf {source : Array UInt8} {n : Node} {c : Claim}
    (h : c ∈ claimsOf source n) : c.Within n := by
  unfold claimsOf at h
  split at h
  · exact Claim.within_of_mem_ofImport h
  · exact Claim.within_of_mem_ofExport h
  · exact Claim.within_of_mem_ofDeclaration h
  · cases h
  · cases h

theorem node_mem_of_mem_claimsOf {source : Array UInt8} {n : Node} {c : Claim}
    (h : c ∈ claimsOf source n) : c.node ∈ n.nodes :=
  (within_of_mem_claimsOf h).upon.reaches

end SourceAtlas
