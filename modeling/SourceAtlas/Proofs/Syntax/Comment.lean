import Mathlib.Data.List.Forall2
import SourceAtlas.Proofs.Syntax.Pattern

/-!
# Comments in a tree

Comments can stand anywhere among the children of any node. They are named, but they stand under no
field and have no children of their own, so what is found by its field or by its kind is found in a
tree with comments as it is found without them.

Results:
* `WithComments.flatMap`, `WithComments.filter`: what makes nothing of comments makes the same of
  children with comments among them.
* `Commented.child?_cases`: fields keep what stands under them.
* `Commented.bindings`, `Commented.parameters`: a pattern binds the same names.
-/

namespace SourceAtlas.Syntax.Node

/-- A node with the kind of a comment, under no field and without children. -/
structure IsComment (n : Node) : Prop where
  kind : n.kind = "comment"
  named : n.label.named = true
  field : n.label.field = none
  leaf : n.children = []

namespace IsComment

variable {c : Node}

theorem namedChildren_eq_nil (h : c.IsComment) : c.namedChildren = [] := by
  rw [namedChildren, h.leaf]
  rfl

theorem bindings_eq_nil (h : c.IsComment) : c.bindings = [] := by
  have hrole : patternRole "comment" = .groups := by decide
  rw [bindings_eq, h.kind, hrole]
  dsimp only
  rw [h.namedChildren_eq_nil]
  rfl

end IsComment

/-- The second list has the nodes of the first, each as `R` allows, with comments among them. -/
inductive WithComments (R : Node → Node → Prop) : List Node → List Node → Prop where
  | nil : WithComments R [] []
  | keep {n n' : Node} {ns ns' : List Node} (node : R n n') (rest : WithComments R ns ns') :
      WithComments R (n :: ns) (n' :: ns')
  | insert {c : Node} {ns ns' : List Node} (comment : c.IsComment) (rest : WithComments R ns ns') :
      WithComments R ns (c :: ns')

/-- The second tree is the first with comments put in as children of any of its nodes. -/
inductive Commented : Node → Node → Prop where
  | mk {label : Label} {cs cs' : List Node} (children : WithComments Commented cs cs') :
      Commented (.mk label cs) (.mk label cs')

/-- The same node but for its children. -/
def SameLabel (n n' : Node) : Prop := n'.label = n.label

namespace SameLabel

variable {n n' : Node}

theorem kind (h : SameLabel n n') : n'.kind = n.kind := congrArg Label.kind h

theorem key (h : SameLabel n n') : n'.key = n.key :=
  congrArg (fun l : Label => (l.start, l.stop, l.kind)) h

theorem line (h : SameLabel n n') : n'.line = n.line := congrArg (fun l : Label => l.row + 1) h

theorem text (h : SameLabel n n') (source : Array UInt8) : n'.text source = n.text source := by
  unfold Node.text
  rw [h]

end SameLabel

/-! ## Lists with comments -/

namespace WithComments

variable {R : Node → Node → Prop} {ns ns' : List Node}

theorem filter (h : WithComments R ns ns') (hR : ∀ n n', R n n' → SameLabel n n')
    (p : Label → Bool) :
    WithComments R (ns.filter (p ·.label)) (ns'.filter (p ·.label)) := by
  induction h with
  | nil => exact .nil
  | @keep n n' ns ns' node rest ih =>
    rw [List.filter_cons, List.filter_cons, hR n n' node]
    split
    · exact .keep node ih
    · exact ih
  | @insert c ns ns' comment rest ih =>
    rw [List.filter_cons]
    split
    · exact .insert comment ih
    · exact ih

/-- Where comments are left out, what is left is the same. -/
theorem filter_kind (h : WithComments R ns ns') (hR : ∀ n n', R n n' → SameLabel n n')
    {kind : String} (hkind : kind ≠ "comment") :
    List.Forall₂ R (ns.filter (·.kind == kind)) (ns'.filter (·.kind == kind)) := by
  induction h with
  | nil => exact .nil
  | @keep n n' ns ns' node rest ih =>
    rw [List.filter_cons, List.filter_cons, (hR n n' node).kind]
    split
    · exact .cons node ih
    · exact ih
  | @insert c ns ns' comment rest ih =>
    rw [List.filter_cons, comment.kind, if_neg (by simpa using hkind.symm)]
    exact ih

/-- What makes nothing of a comment makes the same of nodes with comments among them. -/
theorem flatMap {α : Type} {S : α → α → Prop} {f : Node → List α} (h : WithComments R ns ns')
    (hcomment : ∀ c : Node, c.IsComment → f c = [])
    (hnode : ∀ n ∈ ns, ∀ n', R n n' → List.Forall₂ S (f n) (f n')) :
    List.Forall₂ S (ns.flatMap f) (ns'.flatMap f) := by
  induction h with
  | nil => exact .nil
  | keep node rest ih =>
    rw [List.flatMap_cons, List.flatMap_cons]
    exact List.rel_append (hnode _ List.mem_cons_self _ node)
      (ih fun n hn => hnode n (List.mem_cons_of_mem _ hn))
  | insert comment rest ih =>
    rw [List.flatMap_cons, hcomment _ comment, List.nil_append]
    exact ih hnode

/-- The first of nodes with comments among them is a comment, or what becomes of the first node. -/
theorem head?_cases (h : WithComments R ns ns') :
    (∃ c, ns'.head? = some c ∧ c.IsComment) ∨ (ns.head? = none ∧ ns'.head? = none) ∨
      ∃ n n', ns.head? = some n ∧ ns'.head? = some n' ∧ R n n' := by
  cases h with
  | nil => exact .inr (.inl ⟨rfl, rfl⟩)
  | keep node rest => exact .inr (.inr ⟨_, _, rfl, rfl, node⟩)
  | insert comment rest => exact .inl ⟨_, rfl, comment⟩

end WithComments

/-! ## Trees with comments -/

namespace Commented

variable {n n' : Node}

theorem sameLabel (h : Commented n n') : SameLabel n n' := by
  cases h
  rfl

theorem kind (h : Commented n n') : n'.kind = n.kind := h.sameLabel.kind

theorem children (h : Commented n n') :
    WithComments Commented n.children n'.children := by
  cases h with
  | mk children => exact children

theorem namedChildren (h : Commented n n') :
    WithComments Commented n.namedChildren n'.namedChildren :=
  h.children.filter (fun _ _ => sameLabel) Label.named

/-- Fields keep what stands under them, as no comment stands under a field. -/
theorem child?_cases (h : Commented n n') (field : String) :
    (n.child? field = none ∧ n'.child? field = none) ∨
      ∃ c c', n.child? field = some c ∧ n'.child? field = some c' ∧ Commented c c' := by
  have hchildren := h.children
  unfold child?
  generalize n.children = cs at hchildren ⊢
  generalize n'.children = cs' at hchildren ⊢
  induction hchildren with
  | nil => exact .inl ⟨rfl, rfl⟩
  | @keep c c' cs cs' node rest ih =>
    rw [List.find?_cons, List.find?_cons, node.sameLabel]
    cases c.label.field == some field with
    | true => exact .inr ⟨c, c', rfl, rfl, node⟩
    | false => exact ih
  | insert comment rest ih =>
    rw [List.find?_cons, comment.field]
    exact ih

theorem exists_child? (h : Commented n n') {field : String} {c : Node}
    (hc : n.child? field = some c) : ∃ c', n'.child? field = some c' ∧ Commented c c' := by
  rcases h.child?_cases field with ⟨hn, -⟩ | ⟨d, c', hn, hn', hd⟩
  · rw [hc] at hn
    cases hn
  · obtain rfl := Option.some.inj (hc.symm.trans hn)
    exact ⟨c', hn', hd⟩

theorem exists_child?_of (h : Commented n n') {field : String} {c' : Node}
    (hc : n'.child? field = some c') : ∃ c, n.child? field = some c ∧ Commented c c' := by
  rcases h.child?_cases field with ⟨-, hn'⟩ | ⟨c, d, hn, hn', hd⟩
  · rw [hc] at hn'
    cases hn'
  · obtain rfl := Option.some.inj (hc.symm.trans hn')
    exact ⟨c, hn, hd⟩

/-- What is made of the node under a field is made of what becomes of it. -/
theorem forall₂_child? {α : Type} {S : α → α → Prop} {f : Node → List α} {field : String}
    (h : Commented n n') (hf : ∀ c c', n.child? field = some c → Commented c c' →
      List.Forall₂ S (f c) (f c')) :
    List.Forall₂ S (((n.child? field).map f).getD []) (((n'.child? field).map f).getD []) := by
  rcases h.child?_cases field with ⟨hn, hn'⟩ | ⟨c, c', hn, hn', hc⟩
  · rw [hn, hn']
    exact .nil
  · rw [hn, hn']
    exact hf c c' hn hc

/-- A tree without comments put in. -/
theorem refl (n : Node) : Commented n n := by
  induction n using childInduction with
  | step n ih =>
    obtain ⟨label, children⟩ := n
    have hall : ∀ cs ⊆ children, WithComments Commented cs cs := by
      intro cs hcs
      induction cs with
      | nil => exact .nil
      | cons c cs ihcs =>
        rw [List.cons_subset] at hcs
        exact .keep (ih c hcs.1) (ihcs hcs.2)
    exact .mk (hall children (List.Subset.refl _))

/-! ## Patterns -/

/-- A pattern with comments binds the names that it binds without them. -/
theorem bindings (h : Commented n n') : List.Forall₂ SameLabel n.bindings n'.bindings := by
  induction n using childInduction generalizing n' with
  | step n ih =>
    rw [bindings_eq, bindings_eq, h.kind]
    cases patternRole n.kind with
    | binds => exact .cons h.sameLabel .nil
    | passes field =>
      exact h.forall₂_child? fun c c' hn hc => ih c (List.mem_of_find?_eq_some hn) hc
    | groups =>
      exact h.namedChildren.flatMap (fun c hc => hc.bindings_eq_nil)
        fun c hc c' hcc => ih c (List.mem_of_mem_filter hc) hcc

theorem boundUnder (h : Commented n n') (field : String) :
    List.Forall₂ SameLabel (n.boundUnder field) (n'.boundUnder field) :=
  h.forall₂_child? fun _ _ _ hc => hc.bindings

theorem parameterBindings (h : Commented n n') :
    List.Forall₂ SameLabel n.parameterBindings n'.parameterBindings := by
  unfold Node.parameterBindings
  rw [h.kind]
  split
  · exact h.boundUnder "pattern"
  · exact h.bindings

/-- A function with comments among its parameters has the parameters that it has without them. -/
theorem parameters (h : Commented n n') :
    List.Forall₂ SameLabel n.parameters n'.parameters := by
  unfold Node.parameters
  rcases h.child?_cases "parameters" with ⟨hn, hn'⟩ | ⟨c, c', hn, hn', hc⟩
  · rw [hn, hn']
    exact .nil
  · rw [hn, hn']
    refine hc.namedChildren.flatMap (fun c hc => ?_) fun p _ p' hp => hp.parameterBindings
    rw [Node.parameterBindings, hc.kind, if_neg (by decide)]
    exact hc.bindings_eq_nil

end Commented

end SourceAtlas.Syntax.Node
