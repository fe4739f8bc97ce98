import SourceAtlas.Proofs.Yaml.Node
import SourceAtlas.Yaml.Read

/-!
# Values of a text

A text that has a node fails to have a value only through one of its scalars, unless it is
malformed: merging and collections fail in no other way.

Results:
* `Node.Within`: a node is a part of another; `Closed` says what is kept along parts.
* `blames_build`: what a node that has no value is to be blamed on.
* `read_error`: why a text has no value.
-/

namespace SourceAtlas.Yaml

/-! ## Parts of nodes -/

/-- A property of nodes that all parts of a node have, if the node has it. -/
structure Closed (S : Node → Prop) : Prop where
  item : ∀ tag items, S (.sequence tag items) → ∀ n ∈ items, S n
  entry : ∀ tag es, S (.mapping tag es) → ∀ e ∈ es, S e.1 ∧ S e.2

/-- A node is a part of another, or the same. -/
inductive Node.Within : Node → Node → Prop
  | refl (n : Node) : n.Within n
  | item {n m : Node} {tag : String} {items : List Node} (h : (Node.sequence tag items).Within n)
      (hm : m ∈ items) : m.Within n
  | key {n : Node} {e : Node × Node} {tag : String} {es : List (Node × Node)}
      (h : (Node.mapping tag es).Within n) (he : e ∈ es) : e.1.Within n
  | value {n : Node} {e : Node × Node} {tag : String} {es : List (Node × Node)}
      (h : (Node.mapping tag es).Within n) (he : e ∈ es) : e.2.Within n

theorem Node.closed_within (n : Node) : Closed (·.Within n) :=
  ⟨fun _ _ h _ hm => .item h hm, fun _ _ h _ he => ⟨.key h he, .value h he⟩⟩

/-! ## Merging -/

variable {S : Node → Prop}

/-- An entry of parts. The key of a default is taken for a text. -/
def Drawn (S : Node → Prop) (e : Node × Node) : Prop := (e.1.tag = Tag.text ∨ S e.1) ∧ S e.2

/-- Merging draws entries from parts, or a text is malformed. -/
inductive Merges (S : Node → Prop) {α : Type} (entries : α → List (Node × Node)) :
    Except YamlError α → Prop
  | ok {a : α} (h : ∀ e ∈ entries a, Drawn S e) : Merges S entries (.ok a)
  | malformed : Merges S entries (.error .malformed)

namespace Merges

variable {α β : Type} {entries : α → List (Node × Node)} {entries' : β → List (Node × Node)}

theorem bind {x : Except YamlError α} {f : α → Except YamlError β} (h : Merges S entries x)
    (hf : ∀ a, (∀ e ∈ entries a, Drawn S e) → Merges S entries' (f a)) :
    Merges S entries' (x >>= f) := by
  cases h with
  | ok h => exact hf _ h
  | malformed => exact .malformed

end Merges

theorem tag_ownKey (k : Node) : ownKey k = k ∨ (ownKey k).tag = Tag.text := by
  unfold ownKey
  split
  · cases k <;> exact Or.inr rfl
  · exact Or.inl rfl

theorem drawn_ownKey {k v : Node} (hk : S k) (hv : S v) : Drawn S (ownKey k, v) :=
  ⟨(tag_ownKey k).symm.imp_right fun h => by rwa [h], hv⟩

/-- Merging mappings that are parts draws entries from parts. -/
theorem merges_mergedEntries (hS : Closed S) (es : List (Node × Node)) :
    (∀ e ∈ es, S e.1 ∧ S e.2) → Merges S id (mergedEntries es) := by
  -- What a mapping merges at one entry stands in front of what it merges behind that entry.
  have hmore {es here : List (Node × Node)}
      (hes : Merges S (fun p => p.1 ++ p.2) (splitEntries es)) (hhere : ∀ e ∈ here, Drawn S e) :
      Merges S (fun p => p.1 ++ p.2)
        (splitEntries es >>= fun p => pure (here ++ p.1, p.2)) := by
    refine hes.bind fun p hp => .ok fun e he => ?_
    rw [List.append_assoc] at he
    exact (List.mem_append.mp he).elim (hhere e) (hp e)
  refine mergedEntries.induct
    (fun es => (∀ e ∈ es, S e.1 ∧ S e.2) → Merges S id (mergedEntries es))
    (fun es => (∀ e ∈ es, S e.1 ∧ S e.2) → Merges S (fun p => p.1 ++ p.2) (splitEntries es))
    (fun items => (∀ n ∈ items, S n) → Merges S List.flatten (mergedItems items))
    ?_ ?_ ?_ ?_ ?_ ?_ ?_ ?_ ?_ es
  · intro a es ih hes
    rw [mergedEntries]
    exact (ih hes).bind fun p hp => .ok hp
  · intro _
    rw [splitEntries]
    exact .ok fun e he => by cases he
  · intro k es hk tag es' ih ih' hes
    obtain ⟨⟨-, hv⟩, hes⟩ := List.forall_mem_cons.mp hes
    unfold splitEntries
    rw [if_pos hk]
    exact (ih' (hS.entry tag es' hv)).bind fun here hhere => hmore (ih hes) hhere
  · intro k es hk tag items ih ih' hes
    obtain ⟨⟨-, hv⟩, hes⟩ := List.forall_mem_cons.mp hes
    unfold splitEntries
    rw [if_pos hk]
    refine (ih' (hS.item tag items hv)).bind fun parts hparts => hmore (ih hes) fun e he => ?_
    obtain ⟨part, hpart, he⟩ := List.mem_flatten.mp he
    exact hparts e (List.mem_flatten.mpr ⟨part, List.mem_reverse.mp hpart, he⟩)
  · intro k es hk tag text ih hes
    unfold splitEntries
    rw [if_pos hk]
    exact .malformed
  · intro k v es hk ih hes
    obtain ⟨⟨hsk, hsv⟩, hes⟩ := List.forall_mem_cons.mp hes
    unfold splitEntries
    rw [if_neg hk]
    refine (ih hes).bind fun p hp => .ok fun e he => ?_
    rcases List.mem_append.mp he with he | he
    · exact hp e (List.mem_append_left _ he)
    · rcases List.mem_cons.mp he with rfl | he
      · exact drawn_ownKey hsk hsv
      · exact hp e (List.mem_append_right _ he)
  · intro _
    rw [mergedItems]
    exact .ok fun e he => by cases he
  · intro tag es items ih ih' hitems
    obtain ⟨hn, hitems⟩ := List.forall_mem_cons.mp hitems
    rw [mergedItems]
    refine (ih (hS.entry tag es hn)).bind fun part hpart => (ih' hitems).bind fun parts hparts =>
      .ok fun e he => ?_
    rcases List.mem_append.mp (List.flatten_cons ▸ he) with he | he
    · exact hpart e he
    · exact hparts e he
  · intro n items hn hitems
    unfold mergedItems
    cases n with
    | mapping tag es => exact absurd rfl (hn tag es)
    | sequence => exact .malformed
    | scalar => exact .malformed

/-! ## Values -/

/-- A failure is that of a malformed text, or of a part that has no value. -/
def Blamed (S : Node → Prop) (e : YamlError) : Prop :=
  e = .malformed ∨ ∃ n fuel, S n ∧ scalarValue n.tag n fuel = .error e

/-- Every fault is to be blamed on a part. -/
def Blames {α : Type} (S : Node → Prop) (x : Except Fault α) : Prop :=
  ∀ fault, x = .error fault → Blamed S fault.2

namespace Blames

variable {α β : Type}

theorem ok (a : α) : Blames S (.ok a) := fun _ h => by cases h

theorem malformed (level : Nat) : Blames S (.error (level, .malformed) : Except Fault α) :=
  fun _ h => by
    cases h
    exact Or.inl rfl

theorem map {x : Except Fault α} (h : Blames S x) (f : α → β) : Blames S (x.map f) := by
  cases x with
  | ok a => exact .ok _
  | error fault => exact fun _ heq => h _ (congrArg _ (Except.error.inj heq))

theorem both {x : Except Fault α} {y : Except Fault β} (hx : Blames S x) (hy : Blames S y) :
    Blames S (both x y) := by
  intro fault h
  match x, y with
  | .ok a, .ok b => cases h
  | .error a, .ok _ =>
    cases h
    exact hx _ rfl
  | .ok _, .error b =>
    cases h
    exact hy _ rfl
  | .error a, .error b =>
    cases h
    unfold shownFault
    split
    · exact hy b rfl
    · exact hx a rfl

theorem all {rs : List (Except Fault α)} (h : ∀ r ∈ rs, Blames S r) : Blames S (all rs) := by
  induction rs with
  | nil => exact .ok _
  | cons r rs ih =>
    obtain ⟨hr, hrs⟩ := List.forall_mem_cons.mp h
    exact (hr.both (ih hrs)).map _

theorem all_map {γ : Type} {xs : List γ} {f : γ → Except Fault α} (h : ∀ x ∈ xs, Blames S (f x)) :
    Blames S (SourceAtlas.Yaml.all (xs.map f)) :=
  all fun r hr => by
    obtain ⟨x, hx, rfl⟩ := List.mem_map.mp hr
    exact h x hx

end Blames

/-- A node that is taken for a text has a value. -/
theorem blamed_of_text {n : Node} {fuel : Nat} {e : YamlError} (hn : n.tag = Tag.text)
    (h : scalarValue n.tag n fuel = .error e) : Blamed S e := by
  rw [hn, scalarValue] at h
  cases htext : textOf? fuel n with
  | none =>
    rw [htext] at h
    exact Or.inl (Except.error.inj h).symm
  | some text =>
    rw [htext] at h
    cases h

section Parts

variable {f : Node → Except Fault Value} (hS : Closed S)
  (hf : ∀ n, n.tag = Tag.text ∨ S n → Blames S (f n))

include hf

theorem blames_entryValue {e : Node × Node} (he : Drawn S e) : Blames S (entryValue f e) :=
  (hf _ he.1).both (hf _ (Or.inr he.2))

include hS

theorem blames_memberValues {tag : String} {es : List (Node × Node)} (level : Nat)
    (h : S (.mapping tag es)) : Blames S (memberValues f level es) := by
  have hmerges := merges_mergedEntries hS es (hS.entry tag es h)
  unfold memberValues
  generalize mergedEntries es = merged at hmerges
  cases hmerges with
  | ok hdrawn =>
    refine (Blames.all_map fun e he => ?_).map _
    split
    · exact .malformed _
    · exact blames_entryValue hf (hdrawn e he)
  | malformed => exact .malformed _

theorem blames_pairValue {n : Node} (level : Nat) (h : S n) : Blames S (pairValue f level n) := by
  unfold pairValue
  split
  · rename_i tag e
    obtain ⟨hk, hv⟩ := hS.entry tag [e] h e List.mem_cons_self
    exact (blames_entryValue hf ⟨Or.inr hk, hv⟩).map _
  · exact .malformed _

end Parts

/-- The value of a part, or of a node that is taken for a text. -/
theorem blames_build (hS : Closed S) (fuel level : Nat) {n : Node} (hn : n.tag = Tag.text ∨ S n) :
    Blames S (build fuel level n) := by
  induction fuel generalizing level n with
  | zero => exact .malformed _
  | succ fuel ih =>
    have hpart {tag : String} (htag : (n.tag == tag) = true) (hne : Tag.text ≠ tag) : S n :=
      hn.resolve_left fun h => hne (h.symm.trans (beq_iff_eq.mp htag))
    have hinner (m : Node) (hm : m.tag = Tag.text ∨ S m) : Blames S (build fuel (level + 1) m) :=
      ih (level + 1) hm
    unfold build
    dsimp only
    split
    · rename_i htag
      have hS' := hpart htag (by decide)
      cases n with
      | sequence tag items =>
        exact (Blames.all_map fun m hm => hinner m (Or.inr (hS.item tag items hS' m hm))).map _
      | scalar => exact .malformed _
      | mapping => exact .malformed _
    · split
      · rename_i htag
        have hS' := hpart htag (by decide)
        cases n with
        | mapping tag es => exact (blames_memberValues hS hinner _ hS').map _
        | scalar => exact .malformed _
        | sequence => exact .malformed _
      · split
        · rename_i htag
          have hS' := hpart htag (by decide)
          cases n with
          | mapping tag es => exact (blames_memberValues hS hinner _ hS').map _
          | scalar => exact .malformed _
          | sequence => exact .malformed _
        · split
          · rename_i htag
            have hS' : S n := (Bool.or_eq_true_iff.mp htag).elim
              (fun h => hpart h (by decide)) fun h => hpart h (by decide)
            cases n with
            | sequence tag items =>
              exact (Blames.all_map fun m hm =>
                blames_pairValue hS hinner _ (hS.item tag items hS' m hm)).map _
            | scalar => exact .malformed _
            | mapping => exact .malformed _
          · intro fault h
            cases hvalue : scalarValue n.tag n fuel with
            | ok v =>
              rw [hvalue] at h
              cases h
            | error e =>
              rw [hvalue] at h
              cases h
              rcases hn with hn | hn
              · exact blamed_of_text hn hvalue
              · exact Or.inr ⟨n, fuel, hn, hvalue⟩

/-! ## Texts -/

/-- A text that has no value under a tag, though it is not malformed. -/
inductive Refused (text : List Char) : String → YamlError → Prop
  | bool {e : YamlError} (h : boolValue text = .error e) : Refused text Tag.bool e
  | int {e : YamlError} (h : intValue text = .error e) : Refused text Tag.int e
  | float {e : YamlError} (h : floatValue text = .error e) : Refused text Tag.float e
  | timestamp {e : YamlError} (h : timestampValue text = .error e) : Refused text Tag.timestamp e

theorem binaryValue_error {text : List Char} {e : YamlError} (h : binaryValue text = .error e) :
    e = .malformed := by
  unfold binaryValue at h
  split at h
  · exact (Except.error.inj h).symm
  · cases hbytes : bytesOf? text 0 0 0 with
    | none =>
      rw [hbytes] at h
      exact (Except.error.inj h).symm
    | some bs =>
      rw [hbytes] at h
      cases h

/-- Only the tags of truth values, numbers and moments refuse texts. A moment needs a scalar. -/
theorem scalarValue_error {n : Node} {fuel : Nat} {e : YamlError}
    (h : scalarValue n.tag n fuel = .error e) :
    e = .malformed ∨ (∃ text, textOf? fuel n = some text ∧ Refused text n.tag e) ∨
      e = .wrongShape ∧ n.tag = Tag.timestamp ∧ ∀ text, n ≠ .scalar n.tag text := by
  unfold scalarValue at h
  cases htext : textOf? fuel n with
  | none =>
    rw [htext] at h
    exact Or.inl (Except.error.inj h).symm
  | some text =>
    rw [htext] at h
    dsimp only at h
    have hrefused {tag : String} (htag : (n.tag == tag) = true) (hr : Refused text tag e) :
        ∃ text', some text = some text' ∧ Refused text' n.tag e :=
      ⟨text, rfl, (beq_iff_eq.mp htag) ▸ hr⟩
    split at h
    · cases h
    · split at h
      · cases h
      · split at h
        · rename_i htag
          exact Or.inr (Or.inl (hrefused htag (.bool h)))
        · split at h
          · rename_i htag
            exact Or.inr (Or.inl (hrefused htag (.int h)))
          · split at h
            · rename_i htag
              exact Or.inr (Or.inl (hrefused htag (.float h)))
            · split at h
              · exact Or.inl (binaryValue_error h)
              · split at h
                · rename_i htag
                  split at h
                  · exact Or.inr (Or.inl (hrefused htag (.timestamp h)))
                  · rename_i hother
                    exact Or.inr (Or.inr ⟨(Except.error.inj h).symm, beq_iff_eq.mp htag,
                      fun text => hother n.tag text⟩)
                · exact Or.inl (Except.error.inj h).symm

/-- What keeps a text from having a value, though it is not malformed: a blot, as many marks as may
    be nested, or a part of its root that has no value under its tag. -/
inductive Obstacle (depth : Nat) (cs : List Char) : YamlError → Prop
  | blot {e : YamlError} (h : Blot cs e) : Obstacle depth cs e
  | deep (h : depth ≤ marks cs) : Obstacle depth cs .tooDeep
  | scalar {e : YamlError} {root n : Node} {fuel : Nat} {text : List Char}
      (hroot : nodeOf? depth cs = .ok (some root)) (hn : n.Within root)
      (htext : textOf? fuel n = some text) (h : Refused text n.tag e) : Obstacle depth cs e
  | shape {root n : Node} (hroot : nodeOf? depth cs = .ok (some root)) (hn : n.Within root)
      (htag : n.tag = Tag.timestamp) (h : ∀ text, n ≠ .scalar n.tag text) :
      Obstacle depth cs .wrongShape

/-- **Texts without a value.** A text that has no value is malformed, or something in it is in the
    way. -/
theorem read_error {depth : Nat} {cs : List Char} {e : YamlError}
    (h : read depth cs = .error e) : e = .malformed ∨ Obstacle depth cs e := by
  unfold read at h
  split at h
  · split at h
    · rename_i e' hnode
      cases h
      rcases nodeOf?_error hnode with hm | hblot | ⟨rfl, hdeep⟩
      · exact Or.inl hm
      · exact Or.inr (.blot hblot)
      · exact Or.inr (.deep hdeep)
    · cases h
    · rename_i root hroot
      have hbuild := blames_build root.closed_within (cs.length + 2) 0 (Or.inr (.refl root))
      cases hvalue : build (cs.length + 2) 0 root with
      | ok v =>
        rw [hvalue] at h
        cases h
      | error fault =>
        rw [hvalue] at h
        have he : fault.2 = e := Except.error.inj h
        subst he
        rcases hbuild fault hvalue with hm | ⟨n, fuel, hn, hscalar⟩
        · exact Or.inl hm
        · rcases scalarValue_error hscalar with hm | ⟨text, htext, hr⟩ | ⟨hshape, htag, hn'⟩
          · exact Or.inl hm
          · exact Or.inr (.scalar hroot hn htext hr)
          · rw [hshape]
            exact Or.inr (.shape hroot hn htag hn')
  · exact Or.inl (Except.error.inj h).symm

end SourceAtlas.Yaml
