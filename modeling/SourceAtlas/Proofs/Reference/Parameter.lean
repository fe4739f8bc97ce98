import SourceAtlas.Proofs.Reference.Record
import SourceAtlas.Proofs.Syntax.Gathering

/-!
# Parameters

A function declaration marks the names that its parameters bind, which keeps them from being usages.
What else there is in a parameter is none of its names: the default and the keys of a pattern, and
all that a typed parameter has beside its pattern, such as its type. The function makes no claim on
an identifier there, which is a usage unless something else claims it, as a declaration within a
default does.

Results:
* `mem_parameters_iff`: the nodes listed for a function are those that its parameters bind.
* `node_ne_of_leftOut`: a function makes no claim on what is left out of its parameters.
* `patterns_gathered`: the search for names in patterns, and what becomes of the names and of the
  identifiers beside them.
-/

namespace SourceAtlas

open Syntax

namespace Syntax.Node

variable {f p x n : Node}

/-- A parameter that stands together with its type and default. -/
def IsTyped (p : Node) : Prop := p.kind = "required_parameter" ∨ p.kind = "optional_parameter"

instance (p : Node) : Decidable p.IsTyped := inferInstanceAs (Decidable (_ ∨ _))

/-- The pattern of a parameter. -/
def pattern? (p : Node) : Option Node := if p.IsTyped then p.child? "pattern" else some p

/-- The parameters of the function `f` bind the node `n`. -/
def BindsParameter (f n : Node) : Prop :=
  ∃ list p pattern w, f.child? "parameters" = some list ∧ p ∈ list.namedChildren ∧
    p.pattern? = some pattern ∧ pattern.Reaches w n ∧ n.IsName

/-- The node `x` is left out of what the parameters of the function `f` bind: it stands beside the
    pattern of a typed parameter, or in the default or key of a pattern. -/
inductive LeftOut (f x : Node) : Prop
  | beside {list p c : Node} : f.child? "parameters" = some list → p ∈ list.namedChildren →
      p.IsTyped → c ∈ p.children → p.child? "pattern" ≠ some c → x ∈ c.nodes → LeftOut f x
  | within {list q c : Node} {field : String} : f.child? "parameters" = some list →
      q ∈ list.descendants → q.Passes field → c ∈ q.children → q.child? field ≠ some c →
      x ∈ c.nodes → LeftOut f x

theorem mem_parameterBindings_iff :
    n ∈ p.parameterBindings ↔ ∃ pattern, p.pattern? = some pattern ∧ n ∈ pattern.bindings := by
  have hkind : (p.kind == "required_parameter" || p.kind == "optional_parameter") = true ↔
      p.IsTyped := by
    simp [IsTyped]
  unfold parameterBindings pattern?
  simp only [hkind]
  split
  · exact mem_boundUnder_iff
  · simp

/-- The nodes listed for a function are those that its parameters bind. -/
theorem mem_parameters_iff : n ∈ f.parameters ↔ f.BindsParameter n := by
  unfold parameters BindsParameter
  cases f.child? "parameters" with
  | none => simp
  | some list =>
    simp only [List.mem_flatMap, mem_parameterBindings_iff, mem_bindings_iff, binds_iff_reaches]
    constructor
    · rintro ⟨p, hp, pattern, hpattern, w, hw, hn⟩
      exact ⟨list, p, pattern, w, rfl, hp, hpattern, hw, hn⟩
    · rintro ⟨list', p, pattern, w, hlist, hp, hpattern, hw, hn⟩
      cases hlist
      exact ⟨p, hp, pattern, hpattern, w, hw, hn⟩

theorem LeftOut.mem_descendants (h : f.LeftOut x) :
    ∃ list, f.child? "parameters" = some list ∧ x ∈ list.descendants := by
  cases h with
  | beside hlist hp _ hc _ hx =>
    have hxp := mem_descendants_trans (mem_descendants_of_mem_children hc) hx
    exact ⟨_, hlist, mem_descendants_trans (mem_descendants_of_namedChildren hp)
      (mem_nodes_of_mem_descendants hxp)⟩
  | within hlist hq _ hc _ hx =>
    have hxq := mem_descendants_trans (mem_descendants_of_mem_children hc) hx
    exact ⟨_, hlist, mem_descendants_trans hq (mem_nodes_of_mem_descendants hxq)⟩

section Distinct

variable (h : p.nodes.Nodup)

include h

/-- What passes the search on, above a node of the pattern of a parameter, is in the pattern. -/
theorem mem_nodes_of_pattern? {pattern q : Node} {field : String}
    (hpattern : p.pattern? = some pattern) (hq : q ∈ p.nodes)
    (hpasses : q.Passes field) (hxq : x ∈ q.nodes) (hx : x ∈ pattern.nodes) :
    q ∈ pattern.nodes := by
  unfold pattern? at hpattern
  split at hpattern
  · rename_i htyped
    rcases mem_nodes_iff.mp hq with rfl | hqp
    · unfold Passes at hpasses
      rcases htyped with hkind | hkind <;> simp [hkind] at hpasses
    · obtain ⟨e, he, hqe⟩ := mem_descendants_iff.mp hqp
      obtain rfl := eq_of_mem_nodes_of_children h (List.mem_of_find?_eq_some hpattern) he hx
        (nodes_subset hqe hxq)
      exact hqe
  · cases hpattern
    exact hq

theorem nodup_nodes_of_pattern? {pattern : Node} (hpattern : p.pattern? = some pattern) :
    pattern.nodes.Nodup := by
  unfold pattern? at hpattern
  split at hpattern
  · exact nodup_nodes h (mem_nodes_of_mem_children (List.mem_of_find?_eq_some hpattern))
  · cases hpattern
    exact h

end Distinct

/-- What is left out of the parameters of a function is not bound by them. -/
theorem LeftOut.not_mem_parameters (hf : f.nodes.Nodup) (h : f.LeftOut x) : x ∉ f.parameters := by
  intro hmem
  obtain ⟨list, hlist, -⟩ := h.mem_descendants
  have hl : list.nodes.Nodup :=
    nodup_nodes hf (mem_nodes_of_mem_descendants (mem_descendants_of_child? hlist))
  unfold parameters at hmem
  rw [hlist] at hmem
  obtain ⟨p, hp, hmem⟩ := List.mem_flatMap.mp hmem
  have hxp := mem_nodes_of_parameterBindings hmem
  obtain ⟨pattern, hpattern, hbound⟩ := mem_parameterBindings_iff.mp hmem
  have hxpattern := bindings_subset pattern hbound
  have hp' : p ∈ list.children := List.mem_of_mem_filter hp
  have hnodup := nodup_nodes hl (mem_nodes_of_mem_children hp')
  cases h with
  | @beside list' p' c hlist' hpl htyped hc hne hx =>
    obtain rfl : list = list' := Option.some.inj (hlist.symm.trans hlist')
    have hxp' := mem_nodes_of_mem_descendants (mem_descendants_iff.mpr ⟨c, hc, hx⟩)
    obtain rfl := eq_of_mem_nodes_of_children hl hp' (List.mem_of_mem_filter hpl) hxp hxp'
    rw [pattern?, if_pos htyped] at hpattern
    obtain rfl := eq_of_mem_nodes_of_children hnodup (List.mem_of_find?_eq_some hpattern) hc
      hxpattern hx
    exact hne hpattern
  | @within list' q c field hlist' hq hpasses hc hne hx =>
    obtain rfl : list = list' := Option.some.inj (hlist.symm.trans hlist')
    have hxq := mem_nodes_of_mem_descendants (mem_descendants_iff.mpr ⟨c, hc, hx⟩)
    obtain ⟨d, hd, hqd⟩ := mem_descendants_iff.mp hq
    obtain rfl := eq_of_mem_nodes_of_children hl hp' hd hxp (nodes_subset hqd hxq)
    have hq' := mem_nodes_of_pattern? hnodup hpattern hqd hpasses hxq hxpattern
    exact not_mem_bindings_beside (nodup_nodes_of_pattern? hnodup hpattern) hq' hpasses hc hne hx
      hbound

end Syntax.Node

/-! ## Claims of functions -/

/-- The kinds of declarations that have parameters. -/
def functionDeclarations : List String :=
  ["function_declaration", "generator_function_declaration"]

section Functions

variable {source : Array UInt8} {root f n x : Node} (hkind : f.kind ∈ functionDeclarations)

include hkind

/-- A function marks its parameters and binds its name. -/
theorem claimsOf_function : claimsOf source f = f.parameters.map Claim.mark ++
    ((f.child? "name").map (Claim.bind .declaration none)).toList := by
  have hclass : NodeClass.of f.kind = .declaration := by
    revert hkind
    generalize f.kind = kind
    decide +revert
  have hvariable : (f.kind == "variable_declarator") = false := by
    revert hkind
    generalize f.kind = kind
    decide +revert
  have hfunction : (f.kind == "function_declaration" ||
      f.kind == "generator_function_declaration") = true := by
    simpa [functionDeclarations] using hkind
  unfold claimsOf
  rw [hclass]
  show Claim.ofDeclaration source f = _
  unfold Claim.ofDeclaration
  simp only [hvariable, hfunction, Bool.false_eq_true, if_false, if_true]

/-- A function marks what its parameters bind. -/
theorem mark_mem_claimsOf_iff : Claim.mark n ∈ claimsOf source f ↔ f.BindsParameter n := by
  rw [claimsOf_function hkind, List.mem_append, ← Node.mem_parameters_iff, List.mem_map]
  constructor
  · rintro (⟨m, hm, heq⟩ | hbind)
    · cases heq
      exact hm
    · obtain ⟨m, -, heq⟩ := Option.map_eq_some_iff.mp (Option.mem_toList.mp hbind)
      cases heq
  · intro hn
    exact Or.inl ⟨n, hn, rfl⟩

/-- A function makes no claim on what is left out of its parameters. -/
theorem node_ne_of_leftOut (hf : f.nodes.Nodup) (h : f.LeftOut x) {c : Claim}
    (hc : c ∈ claimsOf source f) : c.node ≠ x := by
  rintro rfl
  rw [claimsOf_function hkind, List.mem_append] at hc
  rcases hc with hc | hc
  · obtain ⟨m, hm, heq⟩ := List.mem_map.mp hc
    cases heq
    exact h.not_mem_parameters hf hm
  · -- The name of a function is not among its parameters.
    obtain ⟨name, hname, heq⟩ := Option.map_eq_some_iff.mp (Option.mem_toList.mp hc)
    cases heq
    obtain ⟨list, hlist, hx⟩ := h.mem_descendants
    have hbelow := Node.mem_descendants_of_child? hlist
    have htop := Node.eq_of_child_mem_descendants hf (List.mem_of_find?_eq_some hname)
      (Node.mem_nodes_of_mem_descendants hbelow) hx
    rw [htop] at hbelow
    exact Node.not_mem_descendants_self f hbelow

end Functions

/-! ## Patterns and parameters -/

/-- **Patterns bind their names, and functions mark those of their parameters.** The search through
    any pattern ends, and has found the names at the places that it reaches, each place once and in
    order; it reaches nothing in the default of a pattern or the key of a pair. A function marks
    exactly the names that its parameters bind, and makes no claim on what it leaves out of them.
    Where no two nodes of a tree have the same place and kind, the names that it marks are no
    usages, and an identifier that it leaves out is one unless some other node makes a claim on
    it. -/
theorem patterns_gathered (source : Array UInt8) :
    (∀ p : Node,
      (∃ k ≤ p.nodes.length, Gathering.round^[k] ⟨[p], []⟩ = ⟨[], p.bindings⟩) ∧
      AtPlaces (fun w n => p.Reaches w n ∧ n.IsName) p.bindings ∧
      ∀ w q field j v n, p.at? w = some q → q.Passes field →
        q.children.findIdx? (fun d => d.label.field == some field) ≠ some j →
        ¬p.Reaches (w ++ j :: v) n) ∧
    ∀ f : Node, f.kind ∈ functionDeclarations →
      (∀ n, Claim.mark n ∈ claimsOf source f ↔ f.BindsParameter n) ∧
      ∀ root : Node, (root.nodes.map Node.key).Nodup → f ∈ root.nodes →
        (∀ n, f.BindsParameter n → ∀ r ∈ recorded source root n, r.kind ≠ .usage) ∧
        ∀ x, f.LeftOut x → (∀ c ∈ claimsOf source f, c.node ≠ x) ∧
          (NodeClass.of x.kind = .identifier → x.text source ≠ "" →
            (recorded source root x = [⟨x.text source, .usage, x.line, none⟩] ↔
              ∀ a ∈ root.nodes, a ≠ f → ∀ c ∈ claimsOf source a, c.node ≠ x)) := by
  refine ⟨fun p => ⟨Gathering.exists_iterate_round p [] [], p.atPlaces_bindings,
    fun w q field j v n => Node.not_reaches_beside⟩, fun f hkind =>
    ⟨fun n => mark_mem_claimsOf_iff hkind, fun root h hf => ⟨fun n hn r hr => ?_, fun x hx => ?_⟩⟩⟩
  · have hclaim : .mark n ∈ claimsOf source f := (mark_mem_claimsOf_iff hkind).mpr hn
    exact kind_ne_usage_of_claimed h (Node.nodes_subset hf (node_mem_of_mem_claimsOf hclaim))
      ⟨_, List.mem_flatMap.mpr ⟨f, hf, hclaim⟩, rfl⟩ hr
  · have hown : ∀ c ∈ claimsOf source f, c.node ≠ x :=
      fun c hc => node_ne_of_leftOut hkind (nodup_keys_of_mem h hf).of_map hx hc
    refine ⟨hown, fun hid htext => ?_⟩
    obtain ⟨list, hlist, hxl⟩ := hx.mem_descendants
    have hxf : x ∈ f.descendants := Node.mem_descendants_trans
      (Node.mem_descendants_of_child? hlist) (Node.mem_nodes_of_mem_descendants hxl)
    have hxroot := Node.nodes_subset hf (Node.mem_nodes_of_mem_descendants hxf)
    rw [recorded_usage_iff h hxroot hid htext]
    constructor
    · intro hfree a ha _ c hc
      exact hfree c (List.mem_flatMap.mpr ⟨a, ha, hc⟩)
    · intro hfree c hc
      obtain ⟨a, ha, hc⟩ := List.mem_flatMap.mp hc
      by_cases haf : a = f
      · exact hown c (haf ▸ hc)
      · exact hfree a ha haf c hc

/-- The text of a function with typed parameters, one of them with a pattern. -/
def typedText : Array UInt8 :=
  (Text.Utf8.encode "function g(\x7b k: a = d \x7d, b: T = e) \x7b\x7d".toList).toArray

/-- The name that the pattern binds. -/
def boundName : Node := .mk ⟨"identifier", true, 16, 17, 0, some "left"⟩ []

/-- The default that the pattern gives it. -/
def defaultName : Node := .mk ⟨"identifier", true, 20, 21, 0, some "right"⟩ []

/-- The name with its default. -/
def defaultPattern : Node :=
  .mk ⟨"assignment_pattern", true, 16, 21, 0, some "value"⟩ [
    boundName,
    .mk ⟨"=", false, 18, 19, 0, none⟩ [],
    defaultName]

/-- The pattern of the first parameter. -/
def keyPattern : Node :=
  .mk ⟨"object_pattern", true, 11, 23, 0, some "pattern"⟩ [
    .mk ⟨"\x7b", false, 11, 12, 0, none⟩ [],
    .mk ⟨"pair_pattern", true, 13, 21, 0, none⟩ [
      .mk ⟨"property_identifier", true, 13, 14, 0, some "key"⟩ [],
      .mk ⟨":", false, 14, 15, 0, none⟩ [],
      defaultPattern],
    .mk ⟨"\x7d", false, 22, 23, 0, none⟩ []]

/-- The type of the second parameter. -/
def typeName : Node := .mk ⟨"type_identifier", true, 28, 29, 0, none⟩ []

/-- The type with its colon. -/
def typePart : Node :=
  .mk ⟨"type_annotation", true, 26, 29, 0, some "type"⟩ [
    .mk ⟨":", false, 26, 27, 0, none⟩ [],
    typeName]

/-- The second parameter. -/
def typedParameter : Node :=
  .mk ⟨"required_parameter", true, 25, 33, 0, none⟩ [
    .mk ⟨"identifier", true, 25, 26, 0, some "pattern"⟩ [],
    typePart,
    .mk ⟨"=", false, 30, 31, 0, none⟩ [],
    .mk ⟨"identifier", true, 32, 33, 0, some "value"⟩ []]

/-- The parameters of the function. -/
def typedParameters : Node :=
  .mk ⟨"formal_parameters", true, 10, 34, 0, some "parameters"⟩ [
    .mk ⟨"(", false, 10, 11, 0, none⟩ [],
    .mk ⟨"required_parameter", true, 11, 23, 0, none⟩ [keyPattern],
    .mk ⟨",", false, 23, 24, 0, none⟩ [],
    typedParameter,
    .mk ⟨")", false, 33, 34, 0, none⟩ []]

/-- The function. -/
def typedFunction : Node :=
  .mk ⟨"function_declaration", true, 0, 37, 0, none⟩ [
    .mk ⟨"function", false, 0, 8, 0, none⟩ [],
    .mk ⟨"identifier", true, 9, 10, 0, some "name"⟩ [],
    typedParameters,
    .mk ⟨"statement_block", true, 35, 37, 0, some "body"⟩ [
      .mk ⟨"\x7b", false, 35, 36, 0, none⟩ [],
      .mk ⟨"\x7d", false, 36, 37, 0, none⟩ []]]

/-- The tree of the text. -/
def typedTree : Node := .mk ⟨"program", true, 0, 37, 0, none⟩ [typedFunction]

theorem patterns_gathered_typedTree :
    (typedTree.nodes.map Node.key).Nodup ∧ keyPattern.bindings = [boundName] ∧
      typedFunction.LeftOut defaultName ∧ typedFunction.LeftOut typeName ∧
      (∀ r ∈ recorded typedText typedTree boundName, r.kind ≠ .usage) ∧
      recorded typedText typedTree defaultName = [⟨"d", .usage, 1, none⟩] ∧
      recorded typedText typedTree typeName = [⟨"T", .usage, 1, none⟩] := by
  have h : (typedTree.nodes.map Node.key).Nodup := by decide
  have hf : typedFunction ∈ typedTree.nodes := .tail _ (.head _)
  have hbound : typedFunction.BindsParameter boundName :=
    Node.mem_parameters_iff.mp (.head _)
  have hlist : typedFunction.child? "parameters" = some typedParameters := rfl
  have hdefault : typedFunction.LeftOut defaultName :=
    .within (q := defaultPattern) (c := defaultName) hlist (List.mem_of_getElem? (i := 7) rfl)
      (.inl ⟨.inl rfl, rfl⟩) (.tail _ (.tail _ (.head _)))
      (fun heq => absurd (congrArg (Option.map Node.key) heq) (by decide))
      defaultName.self_mem_nodes
  have htype : typedFunction.LeftOut typeName :=
    .beside (p := typedParameter) (c := typePart) hlist (.tail _ (.head _)) (.inl rfl)
      (.tail _ (.head _)) (fun heq => absurd (congrArg (Option.map Node.key) heq) (by decide))
      (.tail _ (.tail _ (.head _)))
  have hclaimants : (typedTree.nodes.filter fun a => (claimsOf typedText a).length != 0) =
      [typedFunction] := rfl
  have hother : ∀ a ∈ typedTree.nodes, a ≠ typedFunction → ∀ c ∈ claimsOf typedText a, False := by
    intro a ha haf c hc
    have hmem : a ∈ typedTree.nodes.filter fun a => (claimsOf typedText a).length != 0 :=
      List.mem_filter.mpr ⟨ha, by simp [List.ne_nil_of_mem hc]⟩
    rw [hclaimants] at hmem
    exact haf (List.mem_singleton.mp hmem)
  obtain ⟨-, hfunctions⟩ := patterns_gathered typedText
  obtain ⟨-, hrecorded⟩ := hfunctions typedFunction (.head _)
  obtain ⟨hmarked, hleft⟩ := hrecorded typedTree h hf
  exact ⟨h, rfl, hdefault, htype, hmarked _ hbound,
    ((hleft _ hdefault).2 rfl (by decide)).mpr fun a ha haf c hc _ => hother a ha haf c hc,
    ((hleft _ htype).2 rfl (by decide)).mpr fun a ha haf c hc _ => hother a ha haf c hc⟩

/-- The text of a function whose parameter has a default with a declaration in it. -/
def nestedText : Array UInt8 :=
  (Text.Utf8.encode "function f(a = () => \x7b var x; \x7d) \x7b\x7d".toList).toArray

/-- The name that is declared within the default. -/
def nestedName : Node := .mk ⟨"identifier", true, 27, 28, 0, some "name"⟩ []

/-- The default. -/
def nestedDefault : Node :=
  .mk ⟨"arrow_function", true, 15, 31, 0, some "right"⟩ [
    .mk ⟨"formal_parameters", true, 15, 17, 0, some "parameters"⟩ [
      .mk ⟨"(", false, 15, 16, 0, none⟩ [],
      .mk ⟨")", false, 16, 17, 0, none⟩ []],
    .mk ⟨"=>", false, 18, 20, 0, none⟩ [],
    .mk ⟨"statement_block", true, 21, 31, 0, some "body"⟩ [
      .mk ⟨"\x7b", false, 21, 22, 0, none⟩ [],
      .mk ⟨"variable_declaration", true, 23, 29, 0, none⟩ [
        .mk ⟨"var", false, 23, 26, 0, none⟩ [],
        .mk ⟨"variable_declarator", true, 27, 28, 0, none⟩ [nestedName],
        .mk ⟨";", false, 28, 29, 0, none⟩ []],
      .mk ⟨"\x7d", false, 30, 31, 0, none⟩ []]]

/-- The parameter. -/
def nestedParameter : Node :=
  .mk ⟨"assignment_pattern", true, 11, 31, 0, none⟩ [
    .mk ⟨"identifier", true, 11, 12, 0, some "left"⟩ [],
    .mk ⟨"=", false, 13, 14, 0, none⟩ [],
    nestedDefault]

/-- The parameters of the function. -/
def nestedParameters : Node :=
  .mk ⟨"formal_parameters", true, 10, 32, 0, some "parameters"⟩ [
    .mk ⟨"(", false, 10, 11, 0, none⟩ [],
    nestedParameter,
    .mk ⟨")", false, 31, 32, 0, none⟩ []]

/-- The function. -/
def nestedFunction : Node :=
  .mk ⟨"function_declaration", true, 0, 35, 0, none⟩ [
    .mk ⟨"function", false, 0, 8, 0, none⟩ [],
    .mk ⟨"identifier", true, 9, 10, 0, some "name"⟩ [],
    nestedParameters,
    .mk ⟨"statement_block", true, 33, 35, 0, some "body"⟩ [
      .mk ⟨"\x7b", false, 33, 34, 0, none⟩ [],
      .mk ⟨"\x7d", false, 34, 35, 0, none⟩ []]]

/-- The tree of the text. -/
def nestedTree : Node := .mk ⟨"program", true, 0, 35, 0, none⟩ [nestedFunction]

/-- A name that is declared within the default of a parameter is recorded as a declaration. -/
theorem recorded_nestedTree :
    (nestedTree.nodes.map Node.key).Nodup ∧ nestedFunction ∈ nestedTree.nodes ∧
      nestedFunction.LeftOut nestedName ∧ NodeClass.of nestedName.kind = .identifier ∧
      nestedName.text nestedText = "x" ∧
      recorded nestedText nestedTree nestedName = [⟨"x", .declaration, 1, none⟩] ∧
      referencesOf nestedText nestedTree =
        [⟨"f", .declaration, 1, none⟩, ⟨"x", .declaration, 1, none⟩] := by
  have h : (nestedTree.nodes.map Node.key).Nodup := by decide
  have hlist : nestedFunction.child? "parameters" = some nestedParameters := rfl
  have hleft : nestedFunction.LeftOut nestedName :=
    .within (q := nestedParameter) (c := nestedDefault) hlist (.tail _ (.head _))
      (.inl ⟨.inl rfl, rfl⟩) (.tail _ (.tail _ (.head _)))
      (fun heq => absurd (congrArg (Option.map Node.key) heq) (by decide))
      (List.mem_of_getElem? (i := 10) rfl)
  refine ⟨h, .tail _ (.head _), hleft, rfl, by decide, by rfl, ?_⟩
  rw [referencesOf_eq_attributions]
  rfl

end SourceAtlas
