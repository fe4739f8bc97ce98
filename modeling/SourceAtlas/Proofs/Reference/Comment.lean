import SourceAtlas.Proofs.Reference.Locality
import SourceAtlas.Proofs.Syntax.Comment

/-!
# Comments and references

A comment makes no claim and mentions no name, and statements find the parts that they claim by
field and by kind. There is one place where the order of children counts: a declarator requires a
module if the module is the first argument of its call, and a comment can stand in front of it.

Results:
* `requiredModule_of_hides`, `requiredModule_of_not_hides`: comments keep the module that a
  declarator requires, unless one comes to stand in its place.
* `claimsOf_carried`, `eventsAt_carried`: what a walk comes upon in a tree with comments.
* `madeAfter_carried`: what references are made of it.
* `referencesOf_commented`: what becomes of each reference when comments are put into a tree.
-/

namespace SourceAtlas

open Syntax Syntax.Node

/-! ## Hidden modules -/

/-- A declarator is initialised by a call of `require` with a list of arguments. -/
def RequireCall (source : Array UInt8) (d list : Node) : Prop :=
  ∃ value callee, d.child? "value" = some value ∧ value.kind = "call_expression" ∧
    value.child? "function" = some callee ∧ callee.kind = "identifier" ∧
    callee.text source = "require" ∧ value.child? "arguments" = some list

/-- The node in whose place a required module has to stand: the first argument of the call. -/
def RequireArgument (source : Array UInt8) (d m : Node) : Prop :=
  ∃ list, RequireCall source d list ∧ list.namedChildren.head? = some m

/-- A declarator that requires a module becomes one that has a comment in the module's place. -/
structure Hides (source : Array UInt8) (d d' : Node) : Prop where
  declarator : d.kind = "variable_declarator"
  requires : ∃ m, RequireArgument source d m ∧ m.kind = "string"
  commented : ∃ c, RequireArgument source d' c ∧ c.kind = "comment"

section Hidden

variable {source : Array UInt8} {d d' list m c : Node} {s : String}

theorem RequireArgument.unique (hm : RequireArgument source d m) (hc : RequireArgument source d c) :
    m = c := by
  obtain ⟨list, ⟨value, -, hvalue, -, -, -, -, hlist⟩, hm⟩ := hm
  obtain ⟨list', ⟨value', -, hvalue', -, -, -, -, hlist'⟩, hc⟩ := hc
  obtain rfl := Option.some.inj (hvalue.symm.trans hvalue')
  obtain rfl := Option.some.inj (hlist.symm.trans hlist')
  exact Option.some.inj (hm.symm.trans hc)

/-- A declarator requires the module that the first argument of its call names. -/
theorem requires_iff : Requires source d s ↔
    ∃ m, RequireArgument source d m ∧ Claim.literal source (some m) = some s := by
  constructor
  · rintro ⟨call, callee, list, hcall, hkind, hcallee, hid, htext, hlist, hs⟩
    cases hm : list.namedChildren.head? with
    | none =>
      rw [hm] at hs
      cases hs
    | some m =>
      exact ⟨m, ⟨list, ⟨call, callee, hcall, hkind, hcallee, hid, htext, hlist⟩, hm⟩, hm ▸ hs⟩
  · rintro ⟨m, ⟨list, ⟨call, callee, hcall, hkind, hcallee, hid, htext, hlist⟩, hm⟩, hs⟩
    exact ⟨call, callee, list, hcall, hkind, hcallee, hid, htext, hlist, hm.symm ▸ hs⟩

theorem literal_eq_some_iff : Claim.literal source (some m) = some s ↔
    m.kind = "string" ∧ s = String.ofList ((m.text source).toList.drop 1).dropLast := by
  unfold Claim.literal
  dsimp only
  by_cases hkind : m.kind = "string"
  · rw [if_pos (beq_iff_eq.mpr hkind), Option.some_inj]
    exact ⟨fun h => ⟨hkind, h.symm⟩, fun h => h.2.symm⟩
  · rw [if_neg (mt beq_iff_eq.mp hkind)]
    exact ⟨nofun, fun h => absurd h.1 hkind⟩

theorem RequireCall.commented (h : Commented d d') (hcall : RequireCall source d list) :
    ∃ list', RequireCall source d' list' ∧ Commented list list' := by
  obtain ⟨value, callee, hvalue, hkind, hcallee, hname, htext, hlist⟩ := hcall
  obtain ⟨value', hvalue', hv⟩ := h.exists_child? hvalue
  obtain ⟨callee', hcallee', hc⟩ := hv.exists_child? hcallee
  obtain ⟨list', hlist', hl⟩ := hv.exists_child? hlist
  exact ⟨list', ⟨value', callee', hvalue', hv.kind.trans hkind, hcallee', hc.kind.trans hname,
    (hc.sameLabel.text source).trans htext, hlist'⟩, hl⟩

theorem RequireCall.of_commented (h : Commented d d') (hcall : RequireCall source d' list) :
    ∃ list₀, RequireCall source d list₀ ∧ Commented list₀ list := by
  obtain ⟨value, callee, hvalue, hkind, hcallee, hname, htext, hlist⟩ := hcall
  obtain ⟨value₀, hvalue₀, hv⟩ := h.exists_child?_of hvalue
  obtain ⟨callee₀, hcallee₀, hc⟩ := hv.exists_child?_of hcallee
  obtain ⟨list₀, hlist₀, hl⟩ := hv.exists_child?_of hlist
  exact ⟨list₀, ⟨value₀, callee₀, hvalue₀, hv.kind.symm.trans hkind, hcallee₀,
    hc.kind.symm.trans hname, (hc.sameLabel.text source).symm.trans htext, hlist₀⟩, hl⟩

/-- In the place of the first argument stands what becomes of it, or a comment. -/
theorem RequireArgument.commented (h : Commented d d') (hm : RequireArgument source d m) :
    (∃ m', RequireArgument source d' m' ∧ SameLabel m m') ∨
      ∃ c, RequireArgument source d' c ∧ c.kind = "comment" := by
  obtain ⟨list, hcall, hm⟩ := hm
  obtain ⟨list', hcall', hlist⟩ := hcall.commented h
  rcases hlist.namedChildren.head?_cases with
    ⟨c, hc, hcomment⟩ | ⟨hnone, -⟩ | ⟨m₀, m', hm₀, hm', hsame⟩
  · exact .inr ⟨c, ⟨list', hcall', hc⟩, hcomment.kind⟩
  · rw [hm] at hnone
    cases hnone
  · obtain rfl := Option.some.inj (hm.symm.trans hm₀)
    exact .inl ⟨m', ⟨list', hcall', hm'⟩, hsame.sameLabel⟩

theorem RequireArgument.of_commented (h : Commented d d') (hm : RequireArgument source d' m)
    (hkind : m.kind ≠ "comment") : ∃ m₀, RequireArgument source d m₀ ∧ SameLabel m₀ m := by
  obtain ⟨list', hcall', hm⟩ := hm
  obtain ⟨list, hcall, hlist⟩ := hcall'.of_commented h
  rcases hlist.namedChildren.head?_cases with
    ⟨c, hc, hcomment⟩ | ⟨-, hnone⟩ | ⟨m₀, m', hm₀, hm', hsame⟩
  · obtain rfl := Option.some.inj (hm.symm.trans hc)
    exact absurd hcomment.kind hkind
  · rw [hm] at hnone
    cases hnone
  · obtain rfl := Option.some.inj (hm.symm.trans hm')
    exact ⟨m₀, ⟨list, hcall, hm₀⟩, hsame.sameLabel⟩

theorem literal_of_sameLabel {n n' : Node} (h : SameLabel n n') :
    Claim.literal source (some n') = Claim.literal source (some n) := by
  rw [Claim.literal, Claim.literal, h.kind, h.text]

/-- A declarator loses the module that is hidden. -/
theorem requiredModule_of_hides (h : Hides source d d') :
    (∃ s, Claim.requiredModule source d = some s) ∧ Claim.requiredModule source d' = none := by
  obtain ⟨-, ⟨m, hm, hstring⟩, c, hc, hcomment⟩ := h
  refine ⟨⟨_, requiredModule_eq_some_iff.mpr <|
    requires_iff.mpr ⟨m, hm, literal_eq_some_iff.mpr ⟨hstring, rfl⟩⟩⟩, ?_⟩
  rw [Option.eq_none_iff_forall_ne_some]
  intro s hs
  obtain ⟨m', hm', hs⟩ := requires_iff.mp (requiredModule_eq_some_iff.mp hs)
  obtain rfl := hm'.unique hc
  have hkind := (literal_eq_some_iff.mp hs).1
  rw [hcomment] at hkind
  exact absurd hkind (by decide)

/-- A declarator keeps the module that is not hidden. -/
theorem requiredModule_of_not_hides (h : Commented d d') (hkind : d.kind = "variable_declarator")
    (hno : ¬ Hides source d d') :
    Claim.requiredModule source d' = Claim.requiredModule source d := by
  refine Option.ext fun s => ?_
  rw [requiredModule_eq_some_iff, requiredModule_eq_some_iff, requires_iff, requires_iff]
  constructor
  · rintro ⟨m', hm', hs⟩
    have hstring := (literal_eq_some_iff.mp hs).1
    obtain ⟨m, hm, hsame⟩ := hm'.of_commented h (by rw [hstring]; decide)
    exact ⟨m, hm, (literal_of_sameLabel hsame).symm.trans hs⟩
  · rintro ⟨m, hm, hs⟩
    rcases hm.commented h with ⟨m', hm', hsame⟩ | hcomment
    · exact ⟨m', hm', (literal_of_sameLabel hsame).trans hs⟩
    · exact absurd ⟨hkind, ⟨m, hm, (literal_eq_some_iff.mp hs).1⟩, hcomment⟩ hno

end Hidden

/-! ## Claims -/

namespace Claim

/-- A claim on the same node, which binds it in the same way or marks it. -/
structure Same (c c' : Claim) : Prop where
  node : SameLabel c.node c'.node
  binding : c'.binding = c.binding

/-- What becomes of a claim: it stays the same, unless the module is hidden from which it imports
    the node. Then it declares the node. -/
structure Carried (hides : Prop) (c c' : Claim) : Prop where
  node : SameLabel c.node c'.node
  kept : ¬ hides → c'.binding = c.binding
  lost : hides → ∃ m, c.binding = some (.import, some m) ∧ c'.binding = some (.declaration, none)

theorem Same.carried {c c' : Claim} (h : Same c c') {hides : Prop} (hno : ¬ hides) :
    c.Carried hides c' :=
  ⟨h.node, fun _ => h.binding, fun hhides => absurd hhides hno⟩

theorem forall₂_carried {cs cs' : List Claim} (h : List.Forall₂ Same cs cs') {hides : Prop}
    (hno : ¬ hides) : List.Forall₂ (Carried hides) cs cs' := h.imp fun _ _ hc => hc.carried hno

variable {n n' d d' : Node} {source : Array UInt8}

theorem literal_child? (h : Commented n n') (field : String) :
    literal source (n'.child? field) = literal source (n.child? field) := by
  rcases h.child?_cases field with ⟨hn, hn'⟩ | ⟨c, c', hn, hn', hc⟩
  · rw [hn, hn']
  · rw [hn, hn', literal_of_sameLabel hc.sameLabel]

theorem same_bind {kind : RefKind} {from? : Option String} (h : SameLabel n n') :
    (bind kind from? n).Same (bind kind from? n') := ⟨h, rfl⟩

theorem same_mark (h : SameLabel n n') : (mark n).Same (mark n') := ⟨h, rfl⟩

theorem same_map {f : Node → Claim} {ns ns' : List Node}
    (hf : ∀ n n', SameLabel n n' → (f n).Same (f n'))
    (h : List.Forall₂ SameLabel ns ns') : List.Forall₂ Same (ns.map f) (ns'.map f) :=
  List.rel_map (fun {_ _} hn => hf _ _ hn) h

theorem same_child? {f : Node → Claim}
    (hf : ∀ n n', SameLabel n n' → (f n).Same (f n')) (h : Commented n n')
    (field : String) :
    List.Forall₂ Same ((n.child? field).map f).toList
      ((n'.child? field).map f).toList := by
  rcases h.child?_cases field with ⟨hn, hn'⟩ | ⟨c, c', hn, hn', hc⟩
  · rw [hn, hn']
    exact .nil
  · rw [hn, hn']
    exact .cons (hf c c' hc.sameLabel) .nil

section Parts

variable {kind : RefKind} {from? : Option String}

theorem same_ofSpecifier (h : Commented n n') :
    List.Forall₂ Same (ofSpecifier (bind kind from?) n)
      (ofSpecifier (bind kind from?) n') := by
  unfold ofSpecifier
  rcases h.child?_cases "alias" with ⟨hn, hn'⟩ | ⟨other, other', hn, hn', hother⟩
  · rw [hn, hn']
    exact same_child? (fun _ _ => same_bind) h "name"
  · rw [hn, hn']
    exact List.rel_append (same_child? (fun _ _ => same_mark) h "name")
      (.cons (same_bind hother.sameLabel) .nil)

theorem same_ofSpecifiers {specifierKind : String} (hkind : specifierKind ≠ "comment")
    (h : Commented n n') :
    List.Forall₂ Same (ofSpecifiers specifierKind (bind kind from?) n)
      (ofSpecifiers specifierKind (bind kind from?) n') :=
  List.rel_flatMap (h.namedChildren.filter_kind (fun _ _ => Commented.sameLabel) hkind)
    fun {_ _} hc => same_ofSpecifier hc

theorem same_ofIdentifiers (h : Commented n n') :
    List.Forall₂ Same (ofIdentifiers (bind kind from?) n)
      (ofIdentifiers (bind kind from?) n') :=
  List.rel_map (fun {_ _} hc => same_bind (Commented.sameLabel hc))
    (h.namedChildren.filter_kind (fun _ _ => Commented.sameLabel) (by decide))

theorem same_ofImportClause (h : Commented n n') :
    List.Forall₂ Same (ofImportClause from? n) (ofImportClause from? n') := by
  refine h.namedChildren.flatMap (fun c hc => ?_) fun c _ c' hc => ?_
  · rw [hc.kind]
    rfl
  · rw [hc.kind]
    split
    · exact .cons (same_bind hc.sameLabel) .nil
    · split
      · exact same_ofIdentifiers hc
      · split
        · exact same_ofSpecifiers (by decide) hc
        · exact .nil

end Parts

theorem same_ofImport (h : Commented n n') :
    List.Forall₂ Same (ofImport source n) (ofImport source n') := by
  unfold ofImport
  rw [literal_child? h]
  refine h.namedChildren.flatMap (fun c hc => ?_) fun c _ c' hc => ?_
  · rw [hc.kind]
    rfl
  · rw [hc.kind, literal_child? hc]
    split
    · exact same_ofImportClause hc
    · split
      · exact List.forall₂_take 1 (same_ofIdentifiers hc)
      · exact .nil

theorem same_ofExportedDeclaration (h : Commented n n') :
    List.Forall₂ Same (ofExportedDeclaration n) (ofExportedDeclaration n') := by
  unfold ofExportedDeclaration
  rw [h.kind]
  split
  · exact List.rel_flatMap (h.namedChildren.filter_kind (fun _ _ => Commented.sameLabel)
      (by decide)) fun {_ _} hd => same_map (fun _ _ => same_bind) (hd.boundUnder "name")
  · exact same_child? (fun _ _ => same_bind) h "name"

theorem same_ofExport (h : Commented n n') :
    List.Forall₂ Same (ofExport n) (ofExport n') := by
  unfold ofExport
  refine List.rel_append (h.forall₂_child? fun _ _ _ hd => same_ofExportedDeclaration hd)
    (h.namedChildren.flatMap (fun c hc => ?_) fun c _ c' hc => ?_)
  · rw [hc.kind]
    rfl
  · rw [hc.kind]
    split
    · exact same_ofSpecifiers (by decide) hc
    · split
      · exact same_ofIdentifiers hc
      · exact .nil

/-- A declarator whose module is hidden declares the names that it imports without comments. -/
theorem carried_ofDeclaration (h : Commented d d') :
    List.Forall₂ (Carried (Hides source d d')) (ofDeclaration source d)
      (ofDeclaration source d') := by
  unfold ofDeclaration
  rw [h.kind]
  by_cases hkind : d.kind = "variable_declarator"
  · rw [if_pos (beq_iff_eq.mpr hkind), if_pos (beq_iff_eq.mpr hkind)]
    dsimp only
    by_cases hhides : Hides source d d'
    · obtain ⟨⟨m, hm⟩, hnone⟩ := requiredModule_of_hides hhides
      rw [hm, hnone]
      exact List.rel_map
        (fun {_ _} hn => ⟨hn, fun hno => absurd hhides hno, fun _ => ⟨m, rfl, rfl⟩⟩)
        (h.boundUnder "name")
    · rw [requiredModule_of_not_hides h hkind hhides]
      exact forall₂_carried (same_map (fun _ _ => same_bind) (h.boundUnder "name")) hhides
  · rw [if_neg (mt beq_iff_eq.mp hkind), if_neg (mt beq_iff_eq.mp hkind)]
    refine forall₂_carried (List.rel_append ?_ (same_child? (fun _ _ => same_bind) h "name"))
      fun hhides => hkind hhides.declarator
    split
    · exact same_map (fun _ _ => same_mark) h.parameters
    · exact .nil

end Claim

variable {source : Array UInt8} {n n' : Node}

theorem not_hides_of_class {c : NodeClass} (hclass : NodeClass.of n.kind = c)
    (hc : c ≠ .declaration) : ¬ Hides source n n' := by
  intro hhides
  rw [hhides.declarator] at hclass
  exact hc (hclass.symm.trans (by decide))

theorem claimsOf_carried (h : Commented n n') :
    List.Forall₂ (Claim.Carried (Hides source n n')) (claimsOf source n) (claimsOf source n') := by
  unfold claimsOf
  rw [h.kind]
  cases hclass : NodeClass.of n.kind with
  | «import» =>
    exact Claim.forall₂_carried (Claim.same_ofImport h) (not_hides_of_class hclass (by decide))
  | «export» =>
    exact Claim.forall₂_carried (Claim.same_ofExport h) (not_hides_of_class hclass (by decide))
  | declaration => exact Claim.carried_ofDeclaration h
  | identifier => exact .nil
  | other => exact .nil

/-! ## Events -/

/-- The events of a walk, each with the node that the walk comes to. -/
def eventsAt (source : Array UInt8) (root : Node) : List (Node × Event) :=
  root.nodes.flatMap fun n => (eventsOf source n).map (n, ·)

theorem eventsAt_eq (source : Array UInt8) (n : Node) :
    eventsAt source n =
      (eventsOf source n).map (n, ·) ++ n.children.flatMap (eventsAt source) := by
  rw [eventsAt, nodes_eq, List.flatMap_cons, descendants, nodesOfAll_eq, List.flatMap_assoc]
  rfl

theorem map_snd_eventsAt (source : Array UInt8) (root : Node) :
    (eventsAt source root).map Prod.snd = events source root := by
  rw [eventsAt, List.map_flatMap, events_eq]
  refine List.flatMap_congr fun n _ => ?_
  rw [List.map_map]
  exact List.map_id _

/-- What becomes of an event and of the node that the walk comes to. -/
inductive Event.Carried (source : Array UInt8) : Node × Event → Node × Event → Prop where
  | claim {m m' : Node} {c c' : Claim} (maker : Commented m m')
      (h : c.Carried (Hides source m m') c') : Carried source (m, .claim c) (m', .claim c')
  | mention {n n' : Node} (maker : Commented n n') (class_eq : NodeClass.of n.kind = .identifier) :
      Carried source (n, .mention n) (n', .mention n')

theorem eventsOf_carried (h : Commented n n') :
    List.Forall₂ (Event.Carried source) ((eventsOf source n).map (n, ·))
      ((eventsOf source n').map (n', ·)) := by
  unfold eventsOf
  rw [h.kind]
  split
  · rename_i hclass
    exact .cons (.mention h hclass) .nil
  · rw [List.map_map, List.map_map]
    exact List.rel_map (fun {_ _} hc => .claim h hc) (claimsOf_carried h)

/-- A walk comes upon nothing in a comment. -/
theorem eventsAt_of_isComment {c : Node} (h : c.IsComment) : eventsAt source c = [] := by
  have hclass : NodeClass.of "comment" = .other := by decide
  have hof : eventsOf source c = [] := by
    rw [eventsOf, claimsOf, h.kind, hclass]
    rfl
  rw [eventsAt_eq, hof, h.leaf]
  rfl

theorem eventsAt_carried (h : Commented n n') :
    List.Forall₂ (Event.Carried source) (eventsAt source n) (eventsAt source n') := by
  induction n using childInduction generalizing n' with
  | step n ih =>
    rw [eventsAt_eq, eventsAt_eq]
    refine List.rel_append (eventsOf_carried h) ?_
    exact h.children.flatMap (fun c hc => eventsAt_of_isComment hc)
      fun c hc c' hcc => ih c hc hcc

/-! ## References -/

/-- A reference with the node that it is of and the node at which the walk makes it: the statement
    or declaration that binds the name, or the name itself. -/
structure Attribution where
  maker : Node
  node : Node
  reference : Reference

/-- The references that events make behind others, each with its nodes. -/
def madeAfter (source : Array UInt8) (done : List Event) : List (Node × Event) → List Attribution
  | [] => []
  | (m, e) :: es =>
    let own := if done.any (Event.claims e.node.key) then none else e.reference? source
    own.toList.map (⟨m, e.node, ·⟩) ++ madeAfter source (done ++ [e]) es

/-- The references of a tree, each with its nodes. -/
def attributed (source : Array UInt8) (root : Node) : List Attribution :=
  madeAfter source [] (eventsAt source root)

theorem map_madeAfter (source : Array UInt8) (done : List Event) (es : List (Node × Event)) :
    (madeAfter source done es).map (fun a => (a.node, a.reference)) =
      attributedAfter source done (es.map Prod.snd) := by
  induction es generalizing done with
  | nil => rfl
  | cons e es ih =>
    obtain ⟨m, e⟩ := e
    rw [madeAfter, List.map_append, ih, List.map_map, List.map_cons, attributedAfter]
    rfl

theorem referencesOf_eq_attributed (source : Array UInt8) (root : Node) :
    referencesOf source root = (attributed source root).map Attribution.reference := by
  rw [referencesOf_eq_map, ← map_snd_eventsAt, ← map_madeAfter, List.map_map]
  rfl

theorem maker_mem_of_mem_madeAfter {done : List Event} {es : List (Node × Event)}
    {a : Attribution} (h : a ∈ madeAfter source done es) : ∃ e, (a.maker, e) ∈ es := by
  induction es generalizing done with
  | nil => cases h
  | cons e es ih =>
    obtain ⟨m, e⟩ := e
    rcases List.mem_append.mp h with h | h
    · obtain ⟨r, -, rfl⟩ := List.mem_map.mp h
      exact ⟨e, List.mem_cons_self⟩
    · obtain ⟨e', he'⟩ := ih h
      exact ⟨e', List.mem_cons_of_mem _ he'⟩

theorem maker_mem_nodes {root : Node} {a : Attribution} (h : a ∈ attributed source root) :
    a.maker ∈ root.nodes := by
  obtain ⟨e, he⟩ := maker_mem_of_mem_madeAfter h
  obtain ⟨n, hn, he⟩ := List.mem_flatMap.mp he
  obtain ⟨e', -, heq⟩ := List.mem_map.mp he
  cases heq
  exact hn

/-- What becomes of a reference: it stays as it is, unless the declarator that makes it hides the
    module that it is imported from. Then it is a declaration without a module. -/
structure Attribution.Carried (source : Array UInt8) (a a' : Attribution) : Prop where
  maker : Commented a.maker a'.maker
  node : SameLabel a.node a'.node
  kept : ¬ Hides source a.maker a'.maker → a'.reference = a.reference
  lost : Hides source a.maker a'.maker → a.reference.kind = .import ∧
    a.reference.source.isSome ∧
    a'.reference = { a.reference with kind := .declaration, source := none }

namespace Event.Carried

variable {p p' : Node × Event}

theorem sameLabel (h : Carried source p p') : SameLabel p.2.node p'.2.node := by
  cases h with
  | claim maker h => exact h.node
  | mention maker => exact maker.sameLabel

theorem claims (h : Carried source p p') (key : Nat × Nat × String) :
    p'.2.claims key = p.2.claims key := by
  cases h with
  | claim maker h => simp only [Event.claims, Event.claim?, Option.any_some, h.node.key]
  | mention maker => rfl

theorem reference?_of_sameLabel (h : SameLabel n n') (kind : RefKind) (from? : Option String) :
    n'.reference? source kind from? = n.reference? source kind from? := by
  unfold Node.reference?
  rw [h.text, h.line]

/-- The reference that an event makes, if it makes one. -/
theorem reference? (h : Carried source p p') :
    List.Forall₂ (Attribution.Carried source)
      ((p.2.reference? source).toList.map (⟨p.1, p.2.node, ·⟩))
      ((p'.2.reference? source).toList.map (⟨p'.1, p'.2.node, ·⟩)) := by
  cases h with
  | @claim m m' c c' maker h =>
    obtain ⟨n, binding⟩ := c
    obtain ⟨n', binding'⟩ := c'
    have hn : SameLabel n n' := h.node
    simp only [Event.reference?, Event.node]
    by_cases hhides : Hides source m m'
    · obtain ⟨s, himport, hdeclaration⟩ := h.lost hhides
      obtain rfl : binding = some (.import, some s) := himport
      obtain rfl : binding' = some (.declaration, none) := hdeclaration
      simp only [Option.bind_some, reference?_of_sameLabel hn]
      unfold Node.reference?
      split
      · exact .nil
      · exact .cons ⟨maker, hn, fun hno => absurd hhides hno, fun _ => ⟨rfl, rfl, rfl⟩⟩ .nil
    · obtain rfl : binding' = binding := h.kept hhides
      simp only [reference?_of_sameLabel hn]
      cases (binding'.bind fun b => n.reference? source b.1 b.2) with
      | none => exact .nil
      | some r => exact .cons ⟨maker, hn, fun _ => rfl, fun hh => absurd hh hhides⟩ .nil
  | @mention n n' maker hclass =>
    have hno : ¬ Hides source n n' := not_hides_of_class hclass (by decide)
    simp only [Event.reference?, Event.node, reference?_of_sameLabel maker.sameLabel]
    cases n.reference? source .usage none with
    | none => exact .nil
    | some r => exact .cons ⟨maker, maker.sameLabel, fun _ => rfl, fun hh => absurd hh hno⟩ .nil

end Event.Carried

/-- What becomes of the references that events make behind others, where the same nodes are
    claimed before. -/
theorem madeAfter_carried {es es' : List (Node × Event)} {done done' : List Event}
    (h : List.Forall₂ (Event.Carried source) es es')
    (hdone : ∀ key, done'.any (Event.claims key) = done.any (Event.claims key)) :
    List.Forall₂ (Attribution.Carried source) (madeAfter source done es)
      (madeAfter source done' es') := by
  induction h generalizing done done' with
  | nil => exact .nil
  | @cons p p' es es' hp _ ih =>
    have hnext : ∀ key, (done' ++ [p'.2]).any (Event.claims key) =
        (done ++ [p.2]).any (Event.claims key) := by
      intro key
      rw [List.any_append, List.any_append, hdone, List.any_cons, List.any_cons, hp.claims]
    have hown := hp.reference?
    obtain ⟨m, e⟩ := p
    obtain ⟨m', e'⟩ := p'
    rw [madeAfter, madeAfter]
    refine List.rel_append ?_ (ih hnext)
    rw [hp.sameLabel.key, hdone]
    dsimp only
    split
    · exact .nil
    · exact hown

/-- **Comments change what they hide and nothing else.** Let comments be put into a tree. Then each
    reference stays in its place, at the same node and made by the same statement, with its name,
    line, kind and module, unless it is made by a declarator whose required module has come to stand
    behind a comment: such a reference is an import from the module and becomes a declaration
    without a module. Where in no call of `require` a comment is the first argument, the references
    of the tree with comments are those of the tree without them. -/
theorem referencesOf_commented {t t' : Node} (h : Commented t t') (source : Array UInt8) :
    referencesOf source t = (attributed source t).map Attribution.reference ∧
    referencesOf source t' = (attributed source t').map Attribution.reference ∧
    List.Forall₂ (Attribution.Carried source) (attributed source t) (attributed source t') ∧
    ((∀ d ∈ t'.nodes, d.kind = "variable_declarator" →
        ∀ c, RequireArgument source d c → c.kind ≠ "comment") →
      referencesOf source t' = referencesOf source t) := by
  have hcarried : List.Forall₂ (Attribution.Carried source) (attributed source t)
      (attributed source t') := madeAfter_carried (eventsAt_carried h) fun _ => rfl
  refine ⟨referencesOf_eq_attributed source t, referencesOf_eq_attributed source t', hcarried,
    fun hfree => ?_⟩
  have hmakers := (List.forall₂_and_left _ _).mpr
    ⟨fun a' (ha' : a' ∈ attributed source t') => maker_mem_nodes ha', hcarried.flip⟩
  have hsame : List.Forall₂ (fun a' a : Attribution => a'.reference = a.reference)
      (attributed source t') (attributed source t) := by
    refine hmakers.imp fun a' a ⟨hmaker, ha⟩ => ha.kept fun hhides => ?_
    obtain ⟨c, hc, hcomment⟩ := hhides.commented
    exact hfree a'.maker hmaker (ha.maker.kind.trans hhides.declarator) c hc hcomment
  rw [referencesOf_eq_attributed, referencesOf_eq_attributed, ← List.forall₂_eq_eq_eq,
    List.forall₂_map_left_iff, List.forall₂_map_right_iff]
  exact hsame

/-- The text of a declarator whose module stands between two comments. -/
def requireText : Array UInt8 :=
  (Text.Utf8.encode "const fs = require(/* a */ \"fs\" /* b */);".toList).toArray

def firstComment : Node := .mk ⟨"comment", true, 19, 26, 0, none⟩ []

def lastComment : Node := .mk ⟨"comment", true, 32, 39, 0, none⟩ []

/-- The arguments of the call, with comments in front of the module and behind it. -/
def requireArguments (before after : List Node) : List Node :=
  .mk ⟨"(", false, 18, 19, 0, none⟩ [] :: before ++
    .mk ⟨"string", true, 27, 31, 0, none⟩ [
      .mk ⟨"string_fragment", true, 28, 30, 0, none⟩ []] :: after ++
    [.mk ⟨")", false, 39, 40, 0, none⟩ []]

def requireDeclarator (before after : List Node) : Node :=
  .mk ⟨"variable_declarator", true, 6, 40, 0, none⟩ [
    .mk ⟨"identifier", true, 6, 8, 0, some "name"⟩ [],
    .mk ⟨"=", false, 9, 10, 0, none⟩ [],
    .mk ⟨"call_expression", true, 11, 40, 0, some "value"⟩ [
      .mk ⟨"identifier", true, 11, 18, 0, some "function"⟩ [],
      .mk ⟨"arguments", true, 18, 40, 0, some "arguments"⟩ (requireArguments before after)]]

/-- The tree of the text. -/
def requireTree (before after : List Node) : Node :=
  .mk ⟨"program", true, 0, 41, 0, none⟩ [
    .mk ⟨"lexical_declaration", true, 0, 41, 0, none⟩ [
      .mk ⟨"const", false, 0, 5, 0, some "kind"⟩ [],
      requireDeclarator before after,
      .mk ⟨";", false, 40, 41, 0, none⟩ []]]

theorem isComment_firstComment : firstComment.IsComment := ⟨rfl, rfl, rfl, rfl⟩

theorem isComment_lastComment : lastComment.IsComment := ⟨rfl, rfl, rfl, rfl⟩

theorem commented_requireTree {before after : List Node}
    (harguments : WithComments Commented (requireArguments [] []) (requireArguments before after)) :
    Commented (requireTree [] []) (requireTree before after) := by
  have hcall : Commented
      (.mk ⟨"call_expression", true, 11, 40, 0, some "value"⟩ [
        .mk ⟨"identifier", true, 11, 18, 0, some "function"⟩ [],
        .mk ⟨"arguments", true, 18, 40, 0, some "arguments"⟩ (requireArguments [] [])])
      (.mk ⟨"call_expression", true, 11, 40, 0, some "value"⟩ [
        .mk ⟨"identifier", true, 11, 18, 0, some "function"⟩ [],
        .mk ⟨"arguments", true, 18, 40, 0, some "arguments"⟩ (requireArguments before after)]) :=
    .mk (.keep (.refl _) (.keep (.mk harguments) .nil))
  have hdeclarator : Commented (requireDeclarator [] []) (requireDeclarator before after) :=
    .mk (.keep (.refl _) (.keep (.refl _) (.keep hcall .nil)))
  exact .mk (.keep (.mk (.keep (.refl _) (.keep hdeclarator (.keep (.refl _) .nil)))) .nil)

theorem commented_firstComment : Commented (requireTree [] []) (requireTree [firstComment] []) :=
  commented_requireTree (.keep (.refl _) (.insert isComment_firstComment
    (.keep (.refl _) (.keep (.refl _) .nil))))

theorem commented_lastComment : Commented (requireTree [] []) (requireTree [] [lastComment]) :=
  commented_requireTree (.keep (.refl _) (.keep (.refl _)
    (.insert isComment_lastComment (.keep (.refl _) .nil))))

/-- The comment in front of the module hides it, the one behind it does not. -/
theorem referencesOf_commented_requireTree :
    Hides requireText (requireDeclarator [] []) (requireDeclarator [firstComment] []) ∧
    List.Forall₂ (Attribution.Carried requireText) (attributed requireText (requireTree [] []))
      (attributed requireText (requireTree [firstComment] [])) ∧
    referencesOf requireText (requireTree [] [lastComment]) =
      referencesOf requireText (requireTree [] []) := by
  have hcall : ∀ before after, RequireCall requireText (requireDeclarator before after)
      (.mk ⟨"arguments", true, 18, 40, 0, some "arguments"⟩ (requireArguments before after)) :=
    fun _ _ => ⟨_, _, rfl, rfl, rfl, rfl, by decide, rfl⟩
  refine ⟨⟨rfl, ⟨_, ⟨_, hcall _ _, rfl⟩, rfl⟩, _, ⟨_, hcall _ _, rfl⟩, rfl⟩,
    (referencesOf_commented commented_firstComment requireText).2.2.1,
    (referencesOf_commented commented_lastComment requireText).2.2.2 fun d hd hkind c hc => ?_⟩
  have honly : (requireTree [] [lastComment]).nodes.filter (·.kind == "variable_declarator") =
      [requireDeclarator [] [lastComment]] := rfl
  have hmem := List.mem_filter (p := (·.kind == "variable_declarator")).mpr
    ⟨hd, beq_iff_eq.mpr hkind⟩
  rw [honly] at hmem
  obtain rfl := List.mem_singleton.mp hmem
  obtain rfl := hc.unique ⟨_, hcall _ _, rfl⟩
  decide

/-- With a comment in front of it, the module is lost and its name becomes a declaration. -/
theorem referencesOf_requireTree :
    Commented (requireTree [] []) (requireTree [firstComment] []) ∧
      ((requireTree [firstComment] []).nodes.map Node.key).Nodup ∧
      referencesOf requireText (requireTree [] []) =
        [⟨"fs", .import, 1, some "fs"⟩, ⟨"require", .usage, 1, none⟩] ∧
      referencesOf requireText (requireTree [firstComment] []) =
        [⟨"fs", .declaration, 1, none⟩, ⟨"require", .usage, 1, none⟩] :=
  ⟨commented_firstComment, by decide, by rw [referencesOf_eq_map]; rfl,
    by rw [referencesOf_eq_map]; rfl⟩

end SourceAtlas
