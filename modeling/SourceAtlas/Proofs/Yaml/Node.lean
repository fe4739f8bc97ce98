import SourceAtlas.Proofs.Yaml.Token
import SourceAtlas.Yaml.Node

/-!
# Nodes of a text

Reading takes tokens from the front only, and it fails in three ways: the tokens are malformed, a
failure is met among them, or they open more than may be nested.

Results:
* `Reader.Bounded`: a reader that fails for depth only where enough is opened.
* `Reader.bounds`: how much the tokens of each part of a document open where it is too deep.
* `nodeOf?_error`: what a text that yields no node has.
-/

namespace SourceAtlas.Yaml

namespace Reader

variable {α β : Type}

/-- What a reader may come to on tokens: an answer with what is left, or a failure that the tokens
    account for. It fails for depth only where they open `k` at least. -/
inductive Outcome (k : Nat) (ts : List Token) (P : α → Reading → Prop) :
    Except YamlError (α × Reading) → Prop
  | ok {a : α} {r : Reading} (h : P a r) : Outcome k ts P (.ok (a, r))
  | malformed : Outcome k ts P (.error .malformed)
  | failure {e : YamlError} (h : .failure e ∈ ts) : Outcome k ts P (.error e)
  | deep (h : k ≤ openings ts) : Outcome k ts P (.error .tooDeep)

namespace Outcome

variable {k j : Nat} {ts ts' : List Token} {P : α → Reading → Prop} {Q : β → Reading → Prop}
  {m : Reader α} {f : α → Reader β} {r : Reading}

theorem bind (h : Outcome k ts P (m r)) (hf : ∀ a r', P a r' → Outcome k ts Q (f a r')) :
    Outcome k ts Q ((m >>= f) r) := by
  show Outcome k ts Q (m r >>= fun p => f p.1 p.2)
  generalize m r = x at h
  cases h with
  | ok h => exact hf _ _ h
  | malformed => exact .malformed
  | failure h => exact .failure h
  | deep h => exact .deep h

theorem mono {P' : α → Reading → Prop} {x : Except YamlError (α × Reading)}
    (h : Outcome j ts' P x) (hts : ts' <:+ ts) (hdeep : j ≤ openings ts' → k ≤ openings ts)
    (hP : ∀ a r, P a r → P' a r) : Outcome k ts P' x := by
  cases h with
  | ok h => exact .ok (hP _ _ h)
  | malformed => exact .malformed
  | failure h => exact .failure (hts.mem h)
  | deep h => exact .deep (hdeep h)

end Outcome

/-- A reader that leaves an end of the tokens, and fails for depth only where they open `k`. -/
def Bounded (k : Nat) (m : Reader α) : Prop :=
  ∀ r, Outcome k r.tokens (fun _ r' => r'.tokens <:+ r.tokens) (m r)

namespace Bounded

variable {k j : Nat} {m : Reader α} {f : α → Reader β}

theorem bind (h : Bounded k m) (hf : ∀ a, Bounded k (f a)) : Bounded k (m >>= f) := fun r =>
  (h r).bind fun a r' hr' => (hf a r').mono hr' (fun hk => hk.trans hr'.sublist.countP_le)
    fun _ _ h => h.trans hr'

theorem mono (h : Bounded j m) (hk : k ≤ j) : Bounded k m := fun r =>
  (h r).mono List.suffix_rfl (fun hj => hk.trans hj) fun _ _ h => h

theorem pure (a : α) : Bounded k (pure a : Reader α) := fun _ => .ok List.suffix_rfl

theorem malformed : Bounded k (malformed : Reader α) := fun _ => .malformed

end Bounded

/-! ## Single tokens -/

variable {k : Nat}

/-- The next token is looked at; behind the last one stands the end. -/
theorem outcome_peek (r : Reading) : Outcome k r.tokens
    (fun t r' => r' = r ∧ (t = .streamEnd ∨ r.tokens.head? = some t)) (peek r) := by
  obtain ⟨tokens, anchors, handles⟩ := r
  match tokens with
  | [] => exact .ok ⟨rfl, Or.inl rfl⟩
  | t :: ts =>
    cases t with
    | failure e => exact .failure List.mem_cons_self
    | _ => exact .ok ⟨rfl, Or.inr rfl⟩

theorem bounded_peek : Bounded k peek := fun r =>
  (outcome_peek r).mono List.suffix_rfl id fun _ _ h => h.1 ▸ List.suffix_rfl

theorem bounded_skip : Bounded k skip := fun r => .ok (List.drop_suffix 1 r.tokens)

/-- A token is read where it is the next. -/
theorem outcome_accept {t : Token} (ht : t ≠ .streamEnd) (r : Reading) : Outcome k r.tokens
    (fun b r' => if b then r.tokens = t :: r'.tokens else r' = r) (accept t r) := by
  unfold accept
  refine (outcome_peek r).bind fun t' r' h => ?_
  obtain ⟨rfl, hhead⟩ := h
  split
  · rename_i heq
    rw [beq_iff_eq] at heq
    subst heq
    obtain ⟨ts, hts⟩ := List.head?_eq_some_iff.mp (hhead.resolve_left ht)
    refine .ok ?_
    show r'.tokens = t' :: r'.tokens.drop 1
    rw [hts]
    rfl
  · exact .ok rfl

theorem bounded_accept (t : Token) : Bounded k (accept t) := by
  unfold accept
  refine bounded_peek.bind fun t' => ?_
  split
  · exact bounded_skip.bind fun _ => .pure _
  · exact .pure _

/-- Behind a token that opens something, one less needs to be opened. -/
theorem outcome_opened {t : Token} {m : Reader α} (r r' : Reading) (ht : t.isOpening)
    (hr : r.tokens = t :: r'.tokens) (hm : Bounded (k - 1) m) :
    Outcome k r.tokens (fun _ r'' => r''.tokens <:+ r.tokens) (m r') := by
  have hsuffix : r'.tokens <:+ r.tokens := ⟨[t], hr.symm⟩
  refine (hm r').mono hsuffix (fun hk => ?_) fun _ _ h => h.trans hsuffix
  rw [hr, openings, List.countP_cons_of_pos ht]
  exact Nat.le_add_of_sub_le hk

theorem outcome_skipped {t : Token} {m : Reader α} {r : Reading} (ht : t.isOpening)
    (hr : r.tokens.head? = some t) (hm : Bounded (k - 1) m) :
    Outcome k r.tokens (fun _ r' => r'.tokens <:+ r.tokens) ((skip >>= fun _ => m) r) := by
  obtain ⟨ts, hts⟩ := List.head?_eq_some_iff.mp hr
  refine outcome_opened r { r with tokens := r.tokens.drop 1 } ht ?_ hm
  rw [hts]
  rfl

theorem bounded_opened {t : Token} {f : Bool → Reader α} (ht : t.isOpening)
    (hyes : Bounded (k - 1) (f true)) (hno : Bounded k (f false)) : Bounded k (accept t >>= f) := by
  intro r
  refine (outcome_accept (fun h => by rw [h] at ht; cases ht) r).bind fun b r' hr' => ?_
  cases b with
  | true => exact outcome_opened r r' ht hr' hyes
  | false =>
    obtain rfl : r' = r := hr'
    exact hno r'

/-! ## In front of a node -/

theorem bounded_get : Bounded k (get : Reader Reading) := fun _ => .ok List.suffix_rfl

theorem bounded_properties : Bounded k properties := by
  unfold properties
  refine bounded_peek.bind fun t => ?_
  split
  · refine bounded_skip.bind fun _ => bounded_peek.bind fun t' => ?_
    split
    · exact bounded_skip.bind fun _ => .pure _
    · exact .pure _
  · refine bounded_skip.bind fun _ => bounded_peek.bind fun t' => ?_
    split
    · exact bounded_skip.bind fun _ => .pure _
    · exact .pure _
  · exact .pure _

theorem bounded_tagText (w : Option (List Char) × List Char) : Bounded k (tagText w) := by
  unfold tagText
  split
  · exact .pure _
  · refine bounded_get.bind fun r => ?_
    split
    · exact .pure _
    · exact .malformed

theorem bounded_name (anchor : Option (List Char)) (n : Option Node) :
    Bounded k (name anchor n) := by
  unfold name
  split
  · exact .pure _
  · exact fun _ => .ok List.suffix_rfl

theorem bounded_writtenTag (w : Option (Option (List Char) × List Char)) :
    Bounded k (writtenTag w) := by
  cases w with
  | none => exact .pure _
  | some w => exact (bounded_tagText w).bind fun _ => .pure _

theorem bounded_checkAnchor (anchor : Option (List Char)) : Bounded k (checkAnchor anchor) := by
  cases anchor with
  | none => exact .pure _
  | some a =>
    refine bounded_get.bind fun r => ?_
    split
    · exact .malformed
    · exact .pure _

theorem bounded_nodeHead : Bounded k nodeHead :=
  bounded_properties.bind fun p => (bounded_writtenTag p.2).bind fun _ =>
    (bounded_checkAnchor p.1).bind fun _ => .pure _

theorem bounded_scalarNode (anchor : Option (List Char)) (tag : String) (text : List Char) :
    Bounded k (scalarNode anchor tag text) :=
  (bounded_name _ _).bind fun _ => .pure _

theorem bounded_collection {read : Reader Node} (anchor : Option (List Char)) (h : Bounded k read) :
    Bounded k (collection anchor read) :=
  (bounded_name _ _).bind fun _ => h.bind fun _ => (bounded_name _ _).bind fun _ => .pure _

/-! ## Nodes -/

theorem bounded_flowEnds (close : Token) (first : Bool) :
    Bounded k (flowEnds close first) := by
  unfold flowEnds
  refine (bounded_accept _).bind fun b => ?_
  split
  · exact .pure _
  · split
    · refine (bounded_accept _).bind fun b => ?_
      split
      · exact bounded_accept _
      · exact Bounded.malformed.bind fun _ => bounded_accept _
    · exact bounded_accept _

theorem bounded_flowPart {read : Reader Node} (ends : List Token) (h : Bounded k read) :
    Bounded k (flowPart ends read) := by
  unfold flowPart
  refine bounded_peek.bind fun t => ?_
  split
  · exact .pure _
  · exact h

theorem bounded_flowMember {read : Reader Node} (close : Token) (h : Bounded k read) :
    Bounded k (flowMember close read) := by
  unfold flowMember
  refine (bounded_flowPart _ h).bind fun key => (bounded_accept _).bind fun b => ?_
  split
  · exact (bounded_flowPart _ h).bind fun v => .pure _
  · exact .pure _

/-- How deep the parts of a document have to be, where they are too deep. The entries and members of
    a block start with a token that opens them. -/
structure Bounds (fuel : Nat) : Prop where
  node : ∀ depth inBlock follow, Bounded depth (node fuel depth inBlock follow)
  blockEntries : ∀ depth out, Bounded (depth + 1) (blockEntries fuel depth out)
  looseEntries : ∀ depth out, Bounded (depth + 1) (looseEntries fuel depth out)
  blockPart : ∀ depth, Bounded depth (blockPart fuel depth)
  blockMembers : ∀ depth out, Bounded (depth + 1) (blockMembers fuel depth out)
  flowItems : ∀ depth first out, Bounded depth (flowItems fuel depth first out)
  flowMembers : ∀ depth first out, Bounded depth (flowMembers fuel depth first out)

variable {fuel depth : Nat}

theorem bounded_node (h : Bounds fuel) (depth : Nat) (inBlock follow : Bool) :
    Bounded depth (node (fuel + 1) depth inBlock follow) := by
  rw [node]
  refine bounded_peek.bind fun t => ?_
  split
  · refine bounded_skip.bind fun _ => bounded_get.bind fun r => ?_
    split
    · exact .pure _
    · exact .malformed
  · refine bounded_nodeHead.bind fun head => ?_
    cases depth with
    | zero => exact fun _ => .deep (Nat.zero_le _)
    | succ depth =>
      intro r
      refine (outcome_peek r).bind fun token r' hr' => ?_
      obtain ⟨rfl, htoken⟩ := hr'
      split
      · exact bounded_collection _ ((h.looseEntries depth []).bind fun _ => .pure _) r'
      · split
        · exact (bounded_skip.bind fun _ => bounded_scalarNode _ _ _) r'
        · exact outcome_skipped rfl (htoken.resolve_left (by decide))
            (bounded_collection _ ((h.flowItems depth true []).bind fun _ => .pure _))
        · exact outcome_skipped rfl (htoken.resolve_left (by decide))
            (bounded_collection _ ((h.flowMembers depth true []).bind fun _ => .pure _))
        · split
          · exact (bounded_skip.bind fun _ =>
              bounded_collection _ ((h.blockEntries depth []).bind fun _ => .pure _)) r'
          · exact .malformed
        · split
          · exact (bounded_skip.bind fun _ =>
              bounded_collection _ ((h.blockMembers depth []).bind fun _ => .pure _)) r'
          · exact .malformed
        · split
          · exact .malformed
          · exact bounded_scalarNode _ _ _ r'

theorem bounded_blockEntries (h : Bounds fuel) (depth : Nat) (out : List Node) :
    Bounded (depth + 1) (blockEntries (fuel + 1) depth out) := by
  have hmore (out : List Node) : Bounded depth (blockEntries fuel depth out) :=
    (h.blockEntries depth out).mono (Nat.le_succ depth)
  rw [blockEntries]
  refine bounded_opened (t := .blockEntry) rfl ?_ ?_
  · refine bounded_peek.bind fun t => ?_
    split
    · exact hmore _
    · exact hmore _
    · exact (h.node depth true false).bind fun n => hmore _
  · refine (bounded_accept _).bind fun b => ?_
    cases b with
    | true => exact .pure _
    | false => exact .malformed

theorem bounded_looseEntries (h : Bounds fuel) (depth : Nat) (out : List Node) :
    Bounded (depth + 1) (looseEntries (fuel + 1) depth out) := by
  have hmore (out : List Node) : Bounded depth (looseEntries fuel depth out) :=
    (h.looseEntries depth out).mono (Nat.le_succ depth)
  rw [looseEntries]
  refine bounded_opened (t := .blockEntry) rfl ?_ (.pure _)
  refine bounded_peek.bind fun t => ?_
  split
  any_goals exact hmore _
  exact (h.node depth true false).bind fun n => hmore _

theorem bounded_blockPart (h : Bounds fuel) (depth : Nat) :
    Bounded depth (blockPart (fuel + 1) depth) := by
  rw [blockPart]
  refine bounded_peek.bind fun t => ?_
  split
  any_goals exact .pure _
  exact h.node depth true true

theorem bounded_blockMembers (h : Bounds fuel) (depth : Nat) (out : List (Node × Node)) :
    Bounded (depth + 1) (blockMembers (fuel + 1) depth out) := by
  have hmore (out : List (Node × Node)) : Bounded depth (blockMembers fuel depth out) :=
    (h.blockMembers depth out).mono (Nat.le_succ depth)
  rw [blockMembers]
  refine bounded_opened (t := .key) rfl ?_ ?_
  · refine (h.blockPart depth).bind fun k => (bounded_accept _).bind fun b => ?_
    cases b with
    | true => exact (h.blockPart depth).bind fun v => hmore _
    | false => exact hmore _
  · refine (bounded_accept _).bind fun b => ?_
    cases b with
    | true => exact .pure _
    | false => exact .malformed

theorem bounded_flowItems (h : Bounds fuel) (depth : Nat) (first : Bool) (out : List Node) :
    Bounded depth (flowItems (fuel + 1) depth first out) := by
  rw [flowItems]
  refine (bounded_flowEnds _ first).bind fun b => ?_
  split
  · exact .pure _
  · refine bounded_opened (t := .key) rfl ?_ ?_
    · exact (bounded_flowMember _ (h.node (depth - 1) false false)).bind fun m =>
        (h.flowItems depth false _).mono (Nat.sub_le depth 1)
    · exact (h.node depth false false).bind fun n => h.flowItems depth false _

theorem bounded_flowMembers (h : Bounds fuel) (depth : Nat) (first : Bool)
    (out : List (Node × Node)) : Bounded depth (flowMembers (fuel + 1) depth first out) := by
  rw [flowMembers]
  refine (bounded_flowEnds _ first).bind fun b => ?_
  split
  · exact .pure _
  · refine (bounded_accept _).bind fun b => ?_
    split
    · exact (bounded_flowMember _ (h.node depth false false)).bind fun m =>
        h.flowMembers depth false _
    · exact (h.node depth false false).bind fun n => h.flowMembers depth false _

theorem bounds (fuel : Nat) : Bounds fuel := by
  induction fuel with
  | zero =>
    constructor <;> intros
    · rw [node]; exact .malformed
    · rw [blockEntries]; exact .malformed
    · rw [looseEntries]; exact .malformed
    · rw [blockPart]; exact .malformed
    · rw [blockMembers]; exact .malformed
    · rw [flowItems]; exact .malformed
    · rw [flowMembers]; exact .malformed
  | succ fuel ih =>
    exact ⟨bounded_node ih, bounded_blockEntries ih, bounded_looseEntries ih, bounded_blockPart ih,
      bounded_blockMembers ih, bounded_flowItems ih, bounded_flowMembers ih⟩

/-! ## Documents -/

theorem bounded_directives (fuel : Nat) (versioned : Bool) (own : List (List Char × List Char)) :
    Bounded k (directives fuel versioned own) := by
  induction fuel generalizing versioned own with
  | zero => exact .malformed
  | succ fuel ih =>
    rw [directives]
    refine bounded_peek.bind fun t => ?_
    split
    · refine bounded_skip.bind fun _ => ?_
      split
      · exact Bounded.malformed.bind fun _ => ih _ _
      · exact ih _ _
    · refine bounded_skip.bind fun _ => ?_
      split
      · exact Bounded.malformed.bind fun _ => ih _ _
      · exact ih _ _
    · exact bounded_skip.bind fun _ => ih _ _
    · exact fun _ => .ok List.suffix_rfl

theorem bounded_documentEnds (fuel : Nat) : Bounded k (documentEnds fuel) := by
  induction fuel with
  | zero => exact .pure _
  | succ fuel ih =>
    rw [documentEnds]
    refine (bounded_accept _).bind fun b => ?_
    split
    · exact ih
    · exact .pure _

theorem bounded_lastRoot {read : Reader Node} (fuel : Nat) (h : Bounded k read) :
    Bounded k (lastRoot fuel read) := by
  refine h.bind fun n => (bounded_documentEnds fuel).bind fun _ =>
    (bounded_accept _).bind fun b => ?_
  split
  · exact .pure _
  · exact .malformed

theorem bounded_markedRoot (fuel depth : Nat) : Bounded depth (markedRoot fuel depth) := by
  unfold markedRoot
  refine bounded_peek.bind fun t => ?_
  split
  any_goals exact .pure _
  exact (bounds fuel).node depth true false

theorem bounded_document (fuel depth : Nat) : Bounded depth (document fuel depth) := by
  have hmarked : Bounded depth (directives fuel false [] >>= fun _ =>
      accept .documentStart >>= fun b =>
        if b then lastRoot fuel (markedRoot fuel depth) else malformed) := by
    refine (bounded_directives fuel false []).bind fun _ => (bounded_accept _).bind fun b => ?_
    split
    · exact bounded_lastRoot fuel (bounded_markedRoot fuel depth)
    · exact .malformed
  unfold document
  refine bounded_peek.bind fun t => ?_
  split
  · exact .pure _
  any_goals exact hmarked
  exact bounded_lastRoot fuel ((bounds fuel).node depth true false)

theorem document_error {fuel depth : Nat} {r : Reading} {e : YamlError}
    (h : (document fuel depth).run' r = .error e) :
    e = .malformed ∨ .failure e ∈ r.tokens ∨ e = .tooDeep ∧ depth ≤ openings r.tokens := by
  have hdocument := bounded_document fuel depth r
  rw [StateT.run'] at h
  generalize document fuel depth r = x at h hdocument
  cases hdocument with
  | ok => cases h
  | malformed => exact Or.inl (Except.error.inj h).symm
  | failure hmem =>
    cases h
    exact Or.inr (Or.inl hmem)
  | deep hdeep =>
    cases h
    exact Or.inr (Or.inr ⟨rfl, hdeep⟩)

end Reader

/-- **Nodes.** A text that yields no node is malformed, has a blot, or has as many marks as may be
    nested. -/
theorem nodeOf?_error {depth : Nat} {cs : List Char} {e : YamlError}
    (h : nodeOf? depth cs = .error e) :
    e = .malformed ∨ Blot cs e ∨ e = .tooDeep ∧ depth ≤ marks cs := by
  have haccounted := accounted_tokensOf cs
  unfold nodeOf? at h
  generalize tokensOf cs = ts at h haccounted
  rcases Reader.document_error h with hmalformed | hfailure | ⟨hdeep, hopenings⟩
  · exact Or.inl hmalformed
  · exact (haccounted.failure e hfailure).imp_right Or.inl
  · exact Or.inr (Or.inr ⟨hdeep, hopenings.trans haccounted.few⟩)

end SourceAtlas.Yaml
