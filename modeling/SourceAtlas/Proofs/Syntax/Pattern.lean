import SourceAtlas.Proofs.Syntax.Tree

/-!
# What patterns bind

Which nodes a pattern binds, as a relation between the two: a name binds itself, a pattern with a
default what its left side binds, a pair what its value binds, and any other pattern what its named
parts bind.

Results:
* `bindings_eq`: what a pattern binds, by what binds in its parts.
* `mem_bindings_iff`: the nodes listed for a pattern are those that it binds.
-/

namespace SourceAtlas.Syntax.Node

/-- The pattern `p` binds the node `n`. -/
inductive Binds : Node → Node → Prop
  | name {n : Node} : patternRole n.kind = .binds → Binds n n
  | under {p c n : Node} {field : String} : patternRole p.kind = .passes field →
      p.child? field = some c → Binds c n → Binds p n
  | among {p c n : Node} : patternRole p.kind = .groups → c ∈ p.namedChildren → Binds c n →
      Binds p n

theorem bindingsUnder_eq (field : String) (cs : List Node) :
    bindingsUnder field cs =
      ((cs.find? fun c => c.label.field == some field).map bindings).getD [] := by
  induction cs with
  | nil => rfl
  | cons c cs ih =>
    rw [bindingsUnder, List.find?_cons]
    split
    · rename_i h
      rw [h]
      rfl
    · rename_i h
      rw [Bool.not_eq_true] at h
      rw [h]
      exact ih

theorem bindingsOfNamed_eq (cs : List Node) :
    bindingsOfNamed cs = (cs.filter (·.label.named)).flatMap bindings := by
  induction cs with
  | nil => rfl
  | cons c cs ih =>
    rw [bindingsOfNamed, ih, List.filter_cons]
    cases c.label.named <;> rfl

/-- What a pattern binds, by what binds in its parts. -/
theorem bindings_eq (p : Node) : p.bindings =
    match patternRole p.kind with
    | .binds => [p]
    | .passes field => p.boundUnder field
    | .groups => p.namedChildren.flatMap bindings := by
  cases p with
  | mk label children =>
    have hkind : (mk label children).kind = label.kind := rfl
    rw [bindings, bindingsOfNamed_eq, hkind]
    cases patternRole label.kind with
    | binds => rfl
    | passes field => exact bindingsUnder_eq field children
    | groups => rfl

theorem mem_boundUnder_iff {p n : Node} {field : String} :
    n ∈ p.boundUnder field ↔ ∃ c, p.child? field = some c ∧ n ∈ c.bindings := by
  unfold boundUnder
  cases p.child? field <;> simp

/-- The nodes listed for a pattern are those that it binds. -/
theorem mem_bindings_iff {p n : Node} : n ∈ p.bindings ↔ p.Binds n := by
  constructor
  · intro h
    induction p using childInduction with
    | step p ih =>
      rw [bindings_eq] at h
      cases hrole : patternRole p.kind with
      | binds =>
        rw [hrole] at h
        rw [List.mem_singleton.mp h]
        exact .name hrole
      | passes field =>
        rw [hrole] at h
        obtain ⟨c, hc, hn⟩ := mem_boundUnder_iff.mp h
        exact .under hrole hc (ih c (List.mem_of_find?_eq_some hc) hn)
      | groups =>
        rw [hrole] at h
        obtain ⟨c, hc, hn⟩ := List.mem_flatMap.mp h
        exact .among hrole hc (ih c (List.mem_of_mem_filter hc) hn)
  · intro h
    induction h with
    | name hrole =>
      rw [bindings_eq, hrole]
      exact List.mem_singleton_self _
    | under hrole hc _ ih =>
      rw [bindings_eq, hrole]
      exact mem_boundUnder_iff.mpr ⟨_, hc, ih⟩
    | among hrole hc _ ih =>
      rw [bindings_eq, hrole]
      exact List.mem_flatMap.mpr ⟨_, hc, ih⟩

end SourceAtlas.Syntax.Node
