import SourceAtlas.Proofs.Reference.Export
import SourceAtlas.Proofs.Reference.Order

/-!
# Imported names

Which names a statement or declaration imports, and from which module. The module is named by a
string literal: that of the statement, that of a clause which requires the module, or the first
argument of the call of `require` that initialises a declarator. A clause that requires a module
with an empty name counts as one that names none.

Results:
* `mem_claimsOf_cases`, `Imports.mem_claimsOf`: the claims of a node that import names.
* `Imports.single`: a node that imports names makes one claim on each.
* `recorded_import_iff`: which nodes are recorded as imports, and of which module.
* `referencesOf_modules`: the references that name a module.
-/

namespace SourceAtlas

open Syntax
open Claim (literal)

/-! ## Modules -/

/-- The import clause `clause` introduces the name `n`. -/
inductive InClause : Node → Node → Prop
  | default {clause n : Node} : n ∈ clause.namedChildren → n.kind = "identifier" →
      InClause clause n
  | all {clause s n : Node} : s ∈ clause.namedChildren → s.kind = "namespace_import" →
      n ∈ s.namedChildren → n.kind = "identifier" → InClause clause n
  | named {clause l s n : Node} : l ∈ clause.namedChildren → l.kind = "named_imports" →
      s ∈ l.namedChildren → s.kind = "import_specifier" → s.child? "alias" = none →
      s.child? "name" = some n → InClause clause n
  | aliased {clause l s n : Node} : l ∈ clause.namedChildren → l.kind = "named_imports" →
      s ∈ l.namedChildren → s.kind = "import_specifier" → s.child? "alias" = some n →
      InClause clause n

/-- The node `a` imports the name `n` from the module `m`, if it names one. -/
inductive Imports (source : Array UInt8) : Node → Node → Option String → Prop
  | clause {a clause n : Node} : a.kind = "import_statement" → clause ∈ a.namedChildren →
      clause.kind = "import_clause" → InClause clause n →
      Imports source a n (literal source (a.child? "source"))
  | require {a clause n : Node} : a.kind = "import_statement" → clause ∈ a.namedChildren →
      clause.kind = "import_require_clause" →
      clause.namedChildren.find? (·.kind == "identifier") = some n →
      Imports source a n (((literal source (clause.child? "source")).filter (· != "")).or
        (literal source (a.child? "source")))
  | declarator {a p n : Node} {m : String} : a.kind = "variable_declarator" →
      a.child? "name" = some p → p.Binds n → Requires source a m → Imports source a n (some m)

/-! ## Claims that import -/

/-- A claim binds no name as an import, and names no module. -/
def Claim.Foreign (c : Claim) : Prop := ∀ b ∈ c.binding, b.1 ≠ .import ∧ b.2 = none

namespace Claim

variable {n : Node} {c : Claim} {kind : RefKind} {from? : Option String}

/-- The name that a specifier introduces. -/
def introduced (specifier : Node) : Option Node :=
  (specifier.child? "alias").or (specifier.child? "name")

theorem ofSpecifier_cases (h : c ∈ ofSpecifier (bind kind from?) n) :
    c.binding = none ∨ (c.binding = some (kind, from?) ∧ introduced n = some c.node) := by
  unfold ofSpecifier at h
  unfold introduced
  split at h
  · rename_i other ho
    rcases List.mem_append.mp h with h | h
    · obtain ⟨name, -, rfl⟩ := Option.map_eq_some_iff.mp (Option.mem_toList.mp h)
      exact Or.inl rfl
    · rw [List.mem_singleton.mp h, ho]
      exact Or.inr ⟨rfl, rfl⟩
  · rename_i ho
    obtain ⟨name, hn, rfl⟩ := Option.map_eq_some_iff.mp (Option.mem_toList.mp h)
    rw [ho, hn]
    exact Or.inr ⟨rfl, rfl⟩

theorem bind_mem_ofSpecifier {s : Node} (h : introduced s = some n) :
    bind kind from? n ∈ ofSpecifier (bind kind from?) s := by
  unfold introduced at h
  unfold ofSpecifier
  cases ho : s.child? "alias" with
  | some other =>
    rw [ho, Option.some_or] at h
    cases h
    exact List.mem_append_right _ (List.mem_singleton_self _)
  | none =>
    rw [ho, Option.none_or] at h
    rw [h]
    exact List.mem_singleton_self _

/-- A clause with specifiers binds what they introduce. -/
theorem ofSpecifiers_cases {clauseKind : String}
    (h : c ∈ ofSpecifiers clauseKind (bind kind from?) n) :
    c.binding = none ∨ (c.binding = some (kind, from?) ∧
      ∃ s ∈ n.namedChildren, s.kind = clauseKind ∧ introduced s = some c.node) := by
  obtain ⟨s, hs, hc⟩ := List.mem_flatMap.mp h
  obtain ⟨hs, hkind⟩ := List.mem_filter.mp hs
  exact (ofSpecifier_cases hc).imp_right fun ⟨hb, hn⟩ => ⟨hb, s, hs, beq_iff_eq.mp hkind, hn⟩

theorem mem_ofIdentifiers_iff :
    c ∈ ofIdentifiers (bind kind from?) n ↔
      ∃ m ∈ n.namedChildren, m.kind = "identifier" ∧ c = bind kind from? m := by
  rw [ofIdentifiers, List.mem_map]
  simp only [List.mem_filter, beq_iff_eq, and_assoc]
  exact exists_congr fun m => and_congr_right fun _ => and_congr_right fun _ => eq_comm

/-- The claims of an import clause bind what it introduces. -/
theorem ofImportClause_cases (h : c ∈ ofImportClause from? n) :
    c.binding = none ∨ (c.binding = some (.import, from?) ∧ InClause n c.node) := by
  obtain ⟨part, hpart, hc⟩ := List.mem_flatMap.mp (ofImportClause_eq from? n ▸ h)
  unfold ofImportPart at hc
  split at hc
  · rename_i hkind
    rw [List.mem_singleton.mp hc]
    exact Or.inr ⟨rfl, .default hpart (beq_iff_eq.mp hkind)⟩
  · split at hc
    · rename_i hkind
      obtain ⟨m, hm, hid, rfl⟩ := mem_ofIdentifiers_iff.mp hc
      exact Or.inr ⟨rfl, .all hpart (beq_iff_eq.mp hkind) hm hid⟩
    · split at hc
      · rename_i hkind
        refine (ofSpecifiers_cases hc).imp_right fun ⟨hb, s, hs, hspecifier, hn⟩ => ⟨hb, ?_⟩
        rcases Option.or_eq_some_iff.mp hn with halias | ⟨hno, hname⟩
        · exact .aliased hpart (beq_iff_eq.mp hkind) hs hspecifier halias
        · exact .named hpart (beq_iff_eq.mp hkind) hs hspecifier hno hname
      · cases hc

theorem bind_mem_ofImportClause {clause : Node} (h : InClause clause n) :
    bind .import from? n ∈ ofImportClause from? clause := by
  have hspecifier {l s : Node} (hkind : l.kind = "named_imports") (hs : s ∈ l.namedChildren)
      (hspec : s.kind = "import_specifier") (hn : introduced s = some n) :
      bind .import from? n ∈ ofSpecifiers "import_specifier" (bind .import from?) l :=
    List.mem_flatMap.mpr ⟨s, List.mem_filter.mpr ⟨hs, beq_iff_eq.mpr hspec⟩,
      bind_mem_ofSpecifier hn⟩
  cases h with
  | default hn hkind =>
    refine List.mem_flatMap.mpr ⟨n, hn, ?_⟩
    rw [hkind]
    exact List.mem_singleton_self _
  | all hs hkind hn hid =>
    refine List.mem_flatMap.mpr ⟨_, hs, ?_⟩
    rw [hkind]
    exact mem_ofIdentifiers_iff.mpr ⟨n, hn, hid, rfl⟩
  | named hl hkind hs hspec hno hname =>
    refine List.mem_flatMap.mpr ⟨_, hl, ?_⟩
    rw [hkind]
    exact hspecifier hkind hs hspec (Option.or_eq_some_iff.mpr (Or.inr ⟨hno, hname⟩))
  | aliased hl hkind hs hspec halias =>
    refine List.mem_flatMap.mpr ⟨_, hl, ?_⟩
    rw [hkind]
    exact hspecifier hkind hs hspec (Option.or_eq_some_iff.mpr (Or.inl halias))

/-- The first identifier of a clause that requires a module. -/
theorem take_one_ofIdentifiers (f : Node → Claim) (clause : Node) :
    (ofIdentifiers f clause).take 1 =
      ((clause.namedChildren.find? (·.kind == "identifier")).map f).toList := by
  rw [ofIdentifiers, List.take_one, List.head?_map, List.head?_filter]

end Claim

section Claims

variable {source : Array UInt8} {a n : Node} {c : Claim} {m : Option String}

theorem Claim.ofImport_cases (hkind : a.kind = "import_statement") (h : c ∈ ofImport source a) :
    c.binding = none ∨ ∃ m, c.binding = some (.import, m) ∧ Imports source a c.node m := by
  obtain ⟨clause, hclause, hc⟩ := List.mem_flatMap.mp (ofImport_eq source a ▸ h)
  unfold ofImportedClause at hc
  split at hc
  · rename_i hck
    exact (ofImportClause_cases hc).imp_right fun ⟨hb, hn⟩ =>
      ⟨_, hb, .clause hkind hclause (beq_iff_eq.mp hck) hn⟩
  · split at hc
    · rename_i hck
      dsimp only at hc
      rw [take_one_ofIdentifiers] at hc
      obtain ⟨m, hm, rfl⟩ := Option.map_eq_some_iff.mp (Option.mem_toList.mp hc)
      exact Or.inr ⟨_, rfl, .require hkind hclause (beq_iff_eq.mp hck) hm⟩
    · cases hc

theorem Claim.foreign_of_mem_ofExport (h : c ∈ ofExport a) : c.Foreign := by
  have hbound {kind : RefKind} {P : Prop} (hk : kind ≠ .import)
      (hc : c.binding = none ∨ (c.binding = some (kind, none) ∧ P)) : c.Foreign := by
    rintro b hb
    rcases hc with hnone | ⟨hsome, -⟩
    · rw [hnone] at hb
      cases hb
    · rw [hsome] at hb
      cases hb
      exact ⟨hk, rfl⟩
  rw [ofExport_eq] at h
  rcases List.mem_append.mp h with h | h
  · cases hd : a.child? "declaration" with
    | none =>
      rw [hd] at h
      cases h
    | some d =>
      rw [hd, Option.map_some, Option.getD_some, ofExportedDeclaration_eq] at h
      obtain ⟨m, -, rfl⟩ := List.mem_map.mp h
      exact hbound (P := True) (by decide) (Or.inr ⟨rfl, trivial⟩)
  · obtain ⟨clause, -, hc⟩ := List.mem_flatMap.mp h
    unfold ofExportedClause at hc
    split at hc
    · exact hbound (by decide) (ofSpecifiers_cases hc)
    · split at hc
      · obtain ⟨m, -, -, rfl⟩ := mem_ofIdentifiers_iff.mp hc
        exact hbound (P := True) (by decide) (Or.inr ⟨rfl, trivial⟩)
      · cases hc

theorem Claim.ofDeclaration_cases (h : c ∈ ofDeclaration source a) :
    c.Foreign ∨ ∃ m, c.binding = some (.import, m) ∧ Imports source a c.node m := by
  unfold ofDeclaration at h
  split at h
  · rename_i hkind
    obtain ⟨n, hn, rfl⟩ := List.mem_map.mp h
    obtain ⟨p, hp, hn⟩ := Node.mem_boundUnder_iff.mp hn
    cases hm : requiredModule source a with
    | none => exact Or.inl fun b hb => by cases hb; exact ⟨by decide, rfl⟩
    | some m =>
      exact Or.inr ⟨some m, rfl, .declarator (beq_iff_eq.mp hkind) hp
        (Node.mem_bindings_iff.mp hn) (requiredModule_eq_some_iff.mp hm)⟩
  · refine Or.inl fun b hb => ?_
    rcases List.mem_append.mp h with h | h
    · split at h
      · obtain ⟨p, -, rfl⟩ := List.mem_map.mp h
        cases hb
      · cases h
    · obtain ⟨n, -, rfl⟩ := Option.map_eq_some_iff.mp (Option.mem_toList.mp h)
      cases hb
      exact ⟨by decide, rfl⟩

/-- A claim of a node imports what the node imports, or nothing. -/
theorem mem_claimsOf_cases (h : c ∈ claimsOf source a) :
    c.Foreign ∨ ∃ m, c.binding = some (.import, m) ∧ Imports source a c.node m := by
  unfold claimsOf at h
  split at h
  · rename_i hclass
    have hkind := NodeClass.of_eq_import_iff.mp hclass
    refine (Claim.ofImport_cases hkind h).imp_left fun hnone b hb => ?_
    rw [hnone] at hb
    cases hb
  · exact Or.inl (Claim.foreign_of_mem_ofExport h)
  · exact Claim.ofDeclaration_cases h
  · cases h
  · cases h

/-- A node makes a claim on each name that it imports. -/
theorem Imports.mem_claimsOf (h : Imports source a n m) :
    Claim.bind .import m n ∈ claimsOf source a := by
  cases h with
  | clause hkind hclause hck hn =>
    unfold claimsOf
    rw [hkind]
    refine List.mem_flatMap.mpr ⟨_, hclause, ?_⟩
    rw [hck]
    exact Claim.bind_mem_ofImportClause hn
  | require hkind hclause hck hn =>
    unfold claimsOf
    rw [hkind]
    refine List.mem_flatMap.mpr ⟨_, hclause, ?_⟩
    rw [hck]
    dsimp only
    rw [Claim.take_one_ofIdentifiers, hn]
    exact List.mem_singleton_self _
  | declarator hkind hp hn hm =>
    unfold claimsOf Claim.ofDeclaration
    rw [hkind]
    dsimp only
    rw [requiredModule_eq_some_iff.mpr hm]
    exact List.mem_map_of_mem (Node.mem_boundUnder_iff.mpr ⟨_, hp, Node.mem_bindings_iff.mpr hn⟩)

end Claims

/-! ## One claim on each name -/

/-- No two claims are on one node. -/
def Claim.Single (cs : List Claim) : Prop := ∀ c ∈ cs, ∀ d ∈ cs, c.node = d.node → c = d

namespace Claim

variable {p : Node} {kind : RefKind} {from? : Option String}

theorem single_map_bind (ns : List Node) : Single (ns.map (bind kind from?)) := by
  intro c hc d hd hcd
  obtain ⟨m, -, rfl⟩ := List.mem_map.mp hc
  obtain ⟨n, -, rfl⟩ := List.mem_map.mp hd
  exact congrArg (bind kind from?) hcd

/-- The name and the alias of a specifier are different nodes. -/
theorem single_ofSpecifier : Single (ofSpecifier (bind kind from?) p) := by
  -- A child stands in one field at most.
  have hfield {f g : String} {n : Node} (hf : p.child? f = some n) (hg : p.child? g = some n) :
      f = g := by
    have hf := List.find?_some (p := fun c : Node => c.label.field == some f) hf
    have hg := List.find?_some (p := fun c : Node => c.label.field == some g) hg
    rw [beq_iff_eq] at hf hg
    exact Option.some.inj (hf.symm.trans hg)
  unfold ofSpecifier
  cases ho : p.child? "alias" with
  | none => cases p.child? "name" <;> simp [Single]
  | some other =>
    cases hn : p.child? "name" with
    | none => simp [Single]
    | some name =>
      have hne : name ≠ other := fun h => absurd (hfield hn (h ▸ ho)) (by decide)
      simp [Single, mark, bind, hne, hne.symm]

section Parts

variable (h : p.nodes.Nodup)

include h

/-- Claims on parts of a node are single if they are for each part. -/
theorem single_flatMap {parts : List Node} (hparts : parts ⊆ p.namedChildren)
    {f : Node → List Claim} (hupon : ∀ t, ∀ c ∈ f t, c.Upon t)
    (heach : ∀ t, t.nodes.Nodup → Single (f t)) : Single (parts.flatMap f) := by
  have hchildren {t : Node} (ht : t ∈ parts) : t ∈ p.children := List.mem_of_mem_filter (hparts ht)
  intro c hc d hd hcd
  obtain ⟨t, ht, hc⟩ := List.mem_flatMap.mp hc
  obtain ⟨u, hu, hd⟩ := List.mem_flatMap.mp hd
  obtain rfl := Node.eq_of_mem_nodes_of_children h (hchildren ht) (hchildren hu)
    (hupon t c hc).reaches (hcd ▸ (hupon u d hd).reaches)
  have htp := Node.mem_nodes_of_mem_children (hchildren ht)
  exact heach t (Node.nodup_nodes h htp) c hc d hd hcd

theorem single_ofSpecifiers (hk : kind ≠ .usage) (clauseKind : String) :
    Single (ofSpecifiers clauseKind (bind kind from?) p) :=
  single_flatMap h (fun _ hs => List.mem_of_mem_filter hs)
    (fun _ _ hc => (within_of_mem_ofSpecifier hk hc).upon) fun _ _ => single_ofSpecifier

theorem single_ofImportPart : Single (ofImportPart from? p) := by
  unfold ofImportPart
  split
  · exact single_map_bind [p]
  · split
    · exact single_map_bind _
    · split
      · exact single_ofSpecifiers h (by decide) _
      · nofun

theorem single_ofImportedClause (source : Array UInt8) :
    Single (ofImportedClause source from? p) := by
  unfold ofImportedClause
  split
  · exact single_flatMap h (List.Subset.refl _) (fun _ _ hc => upon_of_mem_ofImportPart hc)
      fun _ ht => single_ofImportPart ht
  · split
    · intro c hc d hd
      exact single_map_bind _ c (List.mem_of_mem_take hc) d (List.mem_of_mem_take hd)
    · nofun

theorem single_ofImport (source : Array UInt8) : Single (ofImport source p) :=
  single_flatMap h (List.Subset.refl _)
    (fun _ _ hc => (within_of_mem_ofImportedClause hc).upon)
    fun _ ht => single_ofImportedClause ht source

end Parts

end Claim

/-- A node that imports names makes one claim on each. -/
theorem Imports.single {source : Array UInt8} {a n : Node} {m : Option String}
    (hdistinct : a.nodes.Nodup) (h : Imports source a n m) : Claim.Single (claimsOf source a) := by
  have himport (hkind : a.kind = "import_statement") : Claim.Single (claimsOf source a) := by
    unfold claimsOf
    rw [hkind]
    exact Claim.single_ofImport hdistinct source
  cases h with
  | clause hkind _ _ _ => exact himport hkind
  | require hkind _ _ _ => exact himport hkind
  | declarator hkind _ _ _ =>
    unfold claimsOf Claim.ofDeclaration
    rw [hkind]
    exact Claim.single_map_bind _

/-! ## What is recorded -/

section Recorded

variable {source : Array UInt8} {root a n : Node} {m : Option String}
  (h : (root.nodes.map Node.key).Nodup)

include h

/-- The only claim on a node is the first one. -/
theorem find?_of_single {cs : List Claim} (hcs : Claim.Single cs)
    (hin : ∀ c ∈ cs, c.node ∈ root.nodes) {c : Claim} (hc : c ∈ cs) :
    cs.find? (fun d => d.node.key == c.node.key) = some c := by
  cases hfind : cs.find? (fun d => d.node.key == c.node.key) with
  | none => exact absurd (beq_self_eq_true c.node.key) (List.find?_eq_none.mp hfind c hc)
  | some d =>
    obtain ⟨hd, hnode⟩ := mem_of_find?_key h hin (hin c hc) hfind
    rw [hcs d hd c hc hnode]

/-- A name that a node imports, and on which nothing above makes a claim, is recorded as an import
    from the module that the node names. -/
theorem recorded_of_imports (ha : a ∈ root.nodes) (hfree : UnclaimedAbove source root a n)
    (himports : Imports source a n m) :
    recorded source root n = (n.reference? source .import m).toList := by
  have ha' := nodup_keys_of_mem h ha
  have hclaim := himports.mem_claimsOf
  have hin : ∀ c ∈ claimsOf source a, c.node ∈ a.nodes :=
    fun _ hc => node_mem_of_mem_claimsOf hc
  have hn : n ∈ a.nodes := hin _ hclaim
  rw [recorded_subtree h ha hn hfree]
  exact recorded_of_own ha' hn (find?_of_single ha' (himports.single ha'.of_map) hin hclaim)

/-- What the first claim in a tree makes of a node on which the root makes a claim is what a claim
    of the root makes of it. -/
theorem exists_claim_of_recorded {c : Claim} (hc : c ∈ claimsOf source root) {r : Reference}
    (hr : r ∈ recorded source root c.node) :
    ∃ d ∈ claimsOf source root, d.node = c.node ∧ d.binding = some (r.kind, r.source) := by
  have hin : ∀ d ∈ claimsOf source root, d.node ∈ root.nodes :=
    fun _ hd => node_mem_of_mem_claimsOf hd
  rw [recorded_eq h (hin c hc), Option.mem_toList] at hr
  unfold yield? at hr
  -- The claims of the root come first, and one of them is on the node.
  rw [claimsIn, Node.nodes_eq, List.flatMap_cons, List.find?_append] at hr
  cases hfind : (claimsOf source root).find? (fun d => d.node.key == c.node.key) with
  | none => exact absurd (beq_self_eq_true c.node.key) (List.find?_eq_none.mp hfind c hc)
  | some d =>
    obtain ⟨hd, hnode⟩ := mem_of_find?_key h hin (hin c hc) hfind
    rw [hfind] at hr
    obtain ⟨b, hb, hr⟩ := Option.bind_eq_some_iff.mp hr
    obtain ⟨hkind, hsource, -⟩ := of_mem_reference? hr
    refine ⟨d, hd, hnode, ?_⟩
    rw [hb, hkind, hsource]

/-- What is recorded as an import is imported by the first node that makes a claim on it. -/
theorem imports_of_mem_recorded (hn : n ∈ root.nodes) {r : Reference}
    (hr : r ∈ recorded source root n) (hkind : r.kind = .import) :
    ∃ a ∈ root.nodes, UnclaimedAbove source root a n ∧ Imports source a n r.source := by
  have hclaimed : ∃ a ∈ root.nodes, ∃ c ∈ claimsOf source a, c.node = n := by
    have hyield := hr
    rw [recorded_eq h hn, Option.mem_toList] at hyield
    unfold yield? at hyield
    split at hyield
    · rename_i c hfind
      obtain ⟨hc, hnode⟩ := mem_of_find?_key h (fun _ hc => node_mem_of_mem_claimsIn hc) hn hfind
      obtain ⟨a, ha, hc⟩ := List.mem_flatMap.mp hc
      exact ⟨a, ha, c, hc, hnode⟩
    · -- Without a claim it would be a usage.
      obtain ⟨-, hyield⟩ := Option.ite_none_right_eq_some.mp hyield
      rw [(of_mem_reference? hyield).1] at hkind
      cases hkind
  -- Below the first node that makes a claim on it, the tree above no longer matters.
  obtain ⟨a, ha, hfree, c, hc, rfl⟩ := exists_unclaimedAbove h.of_map hclaimed
  rw [recorded_subtree h ha (node_mem_of_mem_claimsOf hc) hfree] at hr
  obtain ⟨d, hd, hnode, hbinding⟩ := exists_claim_of_recorded (nodup_keys_of_mem h ha) hc hr
  refine ⟨a, ha, hfree, ?_⟩
  rcases mem_claimsOf_cases hd with hforeign | ⟨m, hm, himports⟩
  · exact absurd hkind (hforeign _ hbinding).1
  · rw [hbinding, hkind] at hm
    cases hm
    exact hnode ▸ himports

/-- A name is recorded as an import from a module iff the first node that makes a claim on it
    imports it from there. -/
theorem recorded_import_iff (hn : n ∈ root.nodes) :
    recorded source root n = [⟨n.text source, .import, n.line, m⟩] ↔
      n.text source ≠ "" ∧
        ∃ a ∈ root.nodes, UnclaimedAbove source root a n ∧ Imports source a n m := by
  constructor
  · intro hrecorded
    have hr : (⟨n.text source, .import, n.line, m⟩ : Reference) ∈ recorded source root n := by
      rw [hrecorded]
      exact List.mem_singleton_self _
    refine ⟨fun htext => ?_, imports_of_mem_recorded h hn hr rfl⟩
    obtain ⟨a, ha, hfree, himports⟩ := imports_of_mem_recorded h hn hr rfl
    rw [recorded_of_imports h ha hfree himports, Node.reference?, if_pos htext] at hr
    cases hr
  · rintro ⟨htext, a, ha, hfree, himports⟩
    rw [recorded_of_imports h ha hfree himports, Node.reference?, if_neg htext]
    rfl

end Recorded

/-! ## References with a module -/

theorem kind_of_source {source : Array UInt8} {root : Node} {r : Reference}
    (hr : r ∈ referencesOf source root) (hsource : r.source.isSome) : r.kind = .import := by
  rw [referencesOf_eq_attributions, List.mem_map] at hr
  obtain ⟨p, hp, rfl⟩ := hr
  obtain ⟨a, -, hp⟩ := List.mem_flatMap.mp ((attributions_sublist source root).subset hp)
  rcases (mem_recordsOf_cases hp).2 with ⟨-, -, hnone⟩ | ⟨c, hc, -, hbinding⟩
  · rw [hnone] at hsource
    cases hsource
  · rcases mem_claimsOf_cases hc with hforeign | ⟨m, hm, -⟩
    · have hnone : p.2.source = none := (hforeign _ hbinding).2
      rw [hnone] at hsource
      cases hsource
    · rw [hbinding] at hm
      exact congrArg Prod.fst (Option.some.inj hm)

/-- The text between the quotes of a string literal. -/
theorem literal_of_quoted {source : Array UInt8} {s : Node} {opening closing : Char}
    {text : String} (hkind : s.kind = "string")
    (htext : (s.text source).toList = opening :: (text.toList ++ [closing])) :
    literal source (some s) = some text := by
  unfold Claim.literal
  dsimp only
  rw [if_pos (beq_iff_eq.mpr hkind), htext, List.drop_succ_cons, List.drop_zero,
    List.dropLast_concat, String.ofList_toList]

/-- **Which module an import names.** A reference that names a module is an import. Every import is
    of a node that a statement or declaration imports, the first that makes a claim on it, and
    names the module that this one imports it from; and what is so imported is recorded as such
    and as nothing else. A string literal names the text between its quotes. -/
theorem referencesOf_modules (source : Array UInt8) {root : Node}
    (h : (root.nodes.map Node.key).Nodup) :
    (∀ r ∈ referencesOf source root, r.source.isSome → r.kind = .import) ∧
    (∀ r ∈ referencesOf source root, r.kind = .import →
      ∃ n ∈ root.nodes, recorded source root n = [r] ∧
        ∃ a ∈ root.nodes, UnclaimedAbove source root a n ∧ Imports source a n r.source) ∧
    (∀ n ∈ root.nodes, ∀ m, recorded source root n = [⟨n.text source, .import, n.line, m⟩] ↔
      n.text source ≠ "" ∧
        ∃ a ∈ root.nodes, UnclaimedAbove source root a n ∧ Imports source a n m) ∧
    (∀ (s : Node) (opening closing : Char) (text : String), s.kind = "string" →
      (s.text source).toList = opening :: (text.toList ++ [closing]) →
        literal source (some s) = some text) := by
  refine ⟨fun r hr hs => kind_of_source hr hs, fun r hr hkind => ?_,
    fun n hn m => recorded_import_iff h hn,
    fun s opening closing text hkind htext => literal_of_quoted hkind htext⟩
  rw [referencesOf_eq_attributions, List.mem_map] at hr
  obtain ⟨⟨n, r⟩, hp, rfl⟩ := hr
  obtain ⟨hn, -⟩ := mem_attributions hp
  have hrecorded : r ∈ recorded source root n :=
    List.mem_map.mpr ⟨(n, r), List.mem_filter.mpr ⟨hp, beq_self_eq_true _⟩, rfl⟩
  refine ⟨n, hn, ?_, imports_of_mem_recorded h hn hrecorded hkind⟩
  rw [recorded_eq h hn, Option.mem_toList] at hrecorded
  rw [recorded_eq h hn, hrecorded]
  rfl

/-- The text of an import under another name, from a module with an empty name. -/
def aliasText : Array UInt8 :=
  (Text.Utf8.encode "import \x7ba as b\x7d from \"\";".toList).toArray

/-- The name that is introduced in it. -/
def aliasName : Node := .mk ⟨"identifier", true, 13, 14, 0, some "alias"⟩ []

/-- The clause in it. -/
def aliasClause : Node :=
  .mk ⟨"import_clause", true, 7, 15, 0, none⟩ [
    .mk ⟨"named_imports", true, 7, 15, 0, none⟩ [
      .mk ⟨"\x7b", false, 7, 8, 0, none⟩ [],
      .mk ⟨"import_specifier", true, 8, 14, 0, none⟩ [
        .mk ⟨"identifier", true, 8, 9, 0, some "name"⟩ [],
        .mk ⟨"as", false, 10, 12, 0, none⟩ [],
        aliasName],
      .mk ⟨"\x7d", false, 14, 15, 0, none⟩ []]]

/-- The statement. -/
def aliasImport : Node :=
  .mk ⟨"import_statement", true, 0, 24, 0, none⟩ [
    .mk ⟨"import", false, 0, 6, 0, none⟩ [],
    aliasClause,
    .mk ⟨"from", false, 16, 20, 0, none⟩ [],
    .mk ⟨"string", true, 21, 23, 0, some "source"⟩ [
      .mk ⟨"\"", false, 21, 22, 0, none⟩ [],
      .mk ⟨"\"", false, 22, 23, 0, none⟩ []],
    .mk ⟨";", false, 23, 24, 0, none⟩ []]

/-- The tree of the text. -/
def aliasTree : Node := .mk ⟨"program", true, 0, 24, 0, none⟩ [aliasImport]

theorem referencesOf_modules_aliasTree :
    (aliasTree.nodes.map Node.key).Nodup ∧
      recorded aliasText aliasTree aliasName = [⟨"b", .import, 1, some ""⟩] := by
  have h : (aliasTree.nodes.map Node.key).Nodup := by decide
  have hfree : UnclaimedAbove aliasText aliasTree aliasImport aliasName :=
    unclaimedAbove_of_other h (.head _) rfl
  have hclause : InClause aliasClause aliasName := .aliased (.head _) rfl (.head _) rfl rfl
  have himports : Imports aliasText aliasImport aliasName (some "") :=
    .clause rfl (.head _) rfl hclause
  have hin : aliasImport ∈ aliasTree.nodes := .tail _ (.head _)
  have hname : aliasName ∈ aliasTree.nodes :=
    Node.nodes_subset hin (node_mem_of_mem_claimsOf himports.mem_claimsOf)
  exact ⟨h, ((referencesOf_modules aliasText h).2.2.1 aliasName hname _).mpr
    ⟨by decide, aliasImport, hin, hfree, himports⟩⟩

/-- The text of a statement that requires a module with an empty name. -/
def namelessText : Array UInt8 := (Text.Utf8.encode "import x = require(\"\");".toList).toArray

/-- The clause in it. -/
def namelessClause : Node :=
  .mk ⟨"import_require_clause", true, 7, 22, 0, none⟩ [
    .mk ⟨"identifier", true, 7, 8, 0, none⟩ [],
    .mk ⟨"=", false, 9, 10, 0, none⟩ [],
    .mk ⟨"require", false, 11, 18, 0, none⟩ [],
    .mk ⟨"(", false, 18, 19, 0, none⟩ [],
    .mk ⟨"string", true, 19, 21, 0, some "source"⟩ [
      .mk ⟨"\"", false, 19, 20, 0, none⟩ [],
      .mk ⟨"\"", false, 20, 21, 0, none⟩ []],
    .mk ⟨")", false, 21, 22, 0, none⟩ []]

/-- The tree of the text. -/
def namelessTree : Node :=
  .mk ⟨"program", true, 0, 23, 0, none⟩ [
    .mk ⟨"import_statement", true, 0, 23, 0, none⟩ [
      .mk ⟨"import", false, 0, 6, 0, none⟩ [],
      namelessClause,
      .mk ⟨";", false, 22, 23, 0, none⟩ []]]

/-- The empty name of a required module is lost. -/
theorem referencesOf_namelessTree :
    (namelessTree.nodes.map Node.key).Nodup ∧ namelessClause ∈ namelessTree.nodes ∧
      literal namelessText (namelessClause.child? "source") = some "" ∧
      referencesOf namelessText namelessTree = [⟨"x", .import, 1, none⟩] := by
  refine ⟨by decide, ?_, by rfl, ?_⟩
  · exact .tail _ (.tail _ (.tail _ (.head _)))
  · rw [referencesOf_eq_attributions]
    rfl

end SourceAtlas
