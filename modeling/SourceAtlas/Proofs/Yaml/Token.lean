import Mathlib.Data.List.InsertIdx
import Mathlib.Data.List.TakeWhile
import SourceAtlas.Proofs.Yaml.Scalar

/-!
# Tokens of a text

What a scanner comes to on a text: the place that it has read up to, and the tokens so far. The
tokens that open a collection or a member of one are each due to a character of the text, and a
text whose tokens end in a failure is malformed or has a blot.

Results:
* `Scanner.Forward`: what a scanner has come to on the way to another; `Scanner.sound_step?` says
  that a step goes forward.
* `accounted_tokensOf`: how many tokens of a text open something, and how they end.
-/

namespace SourceAtlas.Yaml

/-! ## Counts -/

/-- Whether a token opens a collection, or an entry or a member of one. Every block is opened by its
    first entry or its first key. -/
def Token.isOpening : Token → Bool
  | .flowSequence | .flowMapping | .blockEntry | .key => true
  | _ => false

/-- Whether a character may be read as a token that opens something. A colon makes what stands in
    front of it a key. -/
def isMark (c : Char) : Bool := c == '[' || c == '\x7b' || c == '-' || c == '?' || c == ':'

/-- How many characters of a text may open something. -/
def marks (cs : List Char) : Nat := cs.countP isMark

def Token.isFailure : Token → Bool
  | .failure _ => true
  | _ => false

/-- A token that neither opens something nor is a failure. -/
structure Token.Quiet (t : Token) : Prop where
  closed : t.isOpening = false
  unfailed : t.isFailure = false

/-! ## Names, tags and directives -/

variable {cs : List Char} {c d : Cursor}

theorem reads_anchorName (c : Cursor) : c.Reads (anchorName c) := by
  have hspan := c.reaches_span isNameChar
  unfold anchorName
  dsimp only
  split
  · exact .malformed
  · split
    · exact .pure hspan
    · exact .malformed

theorem reads_uriText (fuel : Nat) (c : Cursor) (out : List Char) :
    c.Reads (uriText fuel c out) := by
  induction fuel generalizing c out with
  | zero => exact .malformed
  | succ fuel ih =>
    have hspan := c.reaches_span isUriChar
    rw [uriText]
    dsimp only
    split
    · split
      · split
        · exact .from (hspan.trans (Cursor.reaches_forward _ _)) (ih _ _)
        · exact .malformed
      · exact .malformed
    · split
      · exact .malformed
      · exact .pure hspan

theorem reads_readUri (c : Cursor) : c.Reads (readUri c) := reads_uriText _ c []

theorem reads_tagHandle (c : Cursor) : c.Reads (tagHandle c) := by
  have hspan := c.reaches_step.trans (c.step.reaches_span isNameChar)
  unfold tagHandle
  split
  · exact .malformed
  · split
    · exact .pure c.reaches_step
    · dsimp only
      split
      · exact .pure (hspan.trans (Cursor.reaches_step _))
      · exact .malformed

/-- A token is read from a place on, and it is quiet. -/
def Cursor.ReadsToken (c : Cursor) (x : Except YamlError (Token × Cursor)) : Prop :=
  Sound c.rest (fun r => r.1.Quiet ∧ c.Reaches r.2) x

theorem Token.quiet_tag (handle : Option (List Char)) (suffix : List Char) :
    (Token.tag handle suffix).Quiet := ⟨rfl, rfl⟩

theorem readsToken_readTag (c : Cursor) : c.ReadsToken (readTag c) := by
  have hend {handle : Option (List Char)} {suffix : List Char} {d : Cursor} (hd : c.Reaches d) :
      c.ReadsToken (if d.here == ' ' || isBreakOrEnd d.here then pure (.tag handle suffix, d)
        else throw .malformed) := by
    split
    · exact .pure ⟨Token.quiet_tag _ _, hd⟩
    · exact .malformed
  unfold readTag
  dsimp only
  split
  · refine Sound.bind ((reads_readUri _).from (c.reaches_forward 2)) fun r hr => ?_
    split
    · exact .malformed
    · exact hend (Cursor.Reaches.trans hr (Cursor.reaches_step _))
  · split
    · exact hend c.reaches_step
    · split
      · refine Sound.bind (reads_tagHandle c) fun r hr => ?_
        exact Sound.bind ((reads_readUri r.2).from hr) fun r' hr' => hend hr'
      · exact Sound.bind ((reads_readUri _).from c.reaches_step) fun r hr => hend hr

/-- The digits of a number of a version, which stand behind `%YAML` and perhaps another number. -/
theorem sound_versionNumber (front between : List Char)
    (hc : c.rest = front ++ "%YAML".toList ++ between ++ d.rest)
    (hbetween : ∀ ch ∈ between, ch = ' ' ∨ ch.isDigit ∨ ch = '.') :
    Sound c.rest (fun r => ∃ digits, (∀ ch ∈ digits, ch.isDigit) ∧ d.rest = digits ++ r.2.rest)
      (versionNumber d) := by
  have hspan := d.rest_eq_span Char.isDigit
  have hdigits : ∀ ch ∈ (d.span Char.isDigit).1, ch.isDigit := fun ch hch =>
    List.mem_takeWhile_imp hch
  unfold versionNumber
  dsimp only
  split
  · exact .malformed
  · split
    · rename_i hmany
      refine .blot (.version front between _ (d.span Char.isDigit).2.rest ?_ hbetween hdigits hmany)
      rw [hc, hspan, ← List.append_assoc]
    · exact .pure ⟨_, hdigits, hspan⟩

theorem Cursor.sound_endLine_of_reaches (h : c.Reaches d) :
    Sound c.rest (fun e => c.Reaches e) d.endLine :=
  d.sound_endLine.mono h fun _ he => h.trans he

theorem readsToken_readDirective (h : c.here = '%') : c.ReadsToken (readDirective c) := by
  have hname := c.reaches_step.trans (c.step.reaches_span isNameChar)
  have hword := Cursor.rest_of_here h rfl
  rw [c.step.rest_eq_span isNameChar] at hword
  unfold readDirective
  dsimp only
  generalize c.step.span isNameChar = word at hname hword ⊢
  obtain ⟨name, d⟩ := word
  dsimp only at hname hword ⊢
  split
  · exact .malformed
  · split
    · rename_i hyaml
      rw [beq_iff_eq] at hyaml
      have hblanks := d.rest_eq_span (· == ' ')
      have hspaces : ∀ ch ∈ (d.span (· == ' ')).1, ch = ' ' := fun ch hch => by
        simpa using List.mem_takeWhile_imp hch
      have hfront : c.rest =
          [] ++ "%YAML".toList ++ (d.span (· == ' ')).1 ++ d.skipSpaces.rest := by
        rw [hword, hyaml, hblanks]
        simp [Cursor.skipSpaces, Cursor.skip]
      refine Sound.bind (sound_versionNumber _ _ hfront fun ch hch => Or.inl (hspaces ch hch))
        fun r hr => ?_
      obtain ⟨major, hmajor, hrest⟩ := hr
      have hreached : c.Reaches r.2 :=
        (hname.trans (Cursor.reaches_skip _ _)).trans ⟨major, hrest.symm⟩
      split
      · exact .malformed
      · rename_i hpoint
        have hpoint : r.2.here = '.' := by simpa using hpoint
        have hminor : c.rest = [] ++ "%YAML".toList ++
            ((d.span (· == ' ')).1 ++ major ++ ['.']) ++ r.2.step.rest := by
          rw [hfront, hrest, Cursor.rest_of_here hpoint rfl]
          simp
        refine Sound.bind (sound_versionNumber _ _ hminor fun ch hch => ?_) fun r' hr' => ?_
        · rcases List.mem_append.mp hch with hch | hch
          · exact (List.mem_append.mp hch).imp (hspaces ch) fun h => Or.inl (hmajor ch h)
          · exact Or.inr (Or.inr (List.mem_singleton.mp hch))
        · obtain ⟨minor, -, hrest'⟩ := hr'
          have hreached' : c.Reaches r'.2 :=
            (hreached.trans (Cursor.reaches_step _)).trans ⟨minor, hrest'.symm⟩
          split
          · exact .malformed
          · refine Sound.bind (Cursor.sound_endLine_of_reaches hreached') fun e he => ?_
            exact .pure ⟨⟨rfl, rfl⟩, he⟩
    · split
      · refine Sound.bind ((reads_tagHandle _).from (hname.trans (Cursor.reaches_skip _ _)))
          fun r hr => ?_
        split
        · exact .malformed
        · refine Sound.bind ((reads_readUri _).from
            (Cursor.Reaches.trans hr (Cursor.reaches_skip _ _))) fun r' hr' => ?_
          split
          · exact .malformed
          · refine Sound.bind (Cursor.sound_endLine_of_reaches hr') fun e he => ?_
            exact .pure ⟨⟨rfl, rfl⟩, he⟩
      · refine Sound.bind (Cursor.sound_endLine_of_reaches (hname.trans (Cursor.reaches_skip _ _)))
          fun e he => ?_
        exact .pure ⟨⟨rfl, rfl⟩, he⟩

/-! ## The scanner -/

/-- How many of some tokens open something. -/
def openings (ts : List Token) : Nat := ts.countP Token.isOpening

theorem Token.Quiet.openings_eq {t : Token} (ht : t.Quiet) : openings [t] = 0 := by
  rw [openings, List.countP_singleton, ht.closed]
  rfl

theorem marks_le_of_reaches (h : c.Reaches d) : marks d.rest ≤ marks c.rest :=
  h.sublist.countP_le

/-- The character here counts no more once it is read. -/
theorem marks_step (h : isMark c.here) : marks c.step.rest + 1 = marks c.rest := by
  have hend : isEnd c.here = false := by
    cases hzero : isEnd c.here with
    | false => rfl
    | true =>
      rw [beq_iff_eq.mp hzero] at h
      cases h
  rw [Cursor.rest_of_here rfl hend]
  exact (List.countP_cons_of_pos h).symm

namespace Scanner

variable {s s' s'' : Scanner} {k j : Nat} {t : Token}

/-- A scanner at the same place, with tokens that open at most `k` more, and no failure more. -/
structure Still (k : Nat) (s s' : Scanner) : Prop where
  cursor : s'.cursor = s.cursor
  few : openings s'.tokens.toList ≤ openings s.tokens.toList + k
  unfailed : ∀ e, .failure e ∈ s'.tokens.toList → .failure e ∈ s.tokens.toList

/-- A scanner further on: its tokens open no more than the characters in between can, and there is
    no failure more. -/
structure Forward (s s' : Scanner) : Prop where
  reaches : s.cursor.Reaches s'.cursor
  few : openings s'.tokens.toList + marks s'.cursor.rest ≤
    openings s.tokens.toList + marks s.cursor.rest
  unfailed : ∀ e, .failure e ∈ s'.tokens.toList → .failure e ∈ s.tokens.toList

theorem Still.refl (s : Scanner) : Still 0 s s := ⟨rfl, le_refl _, fun _ => id⟩

theorem Still.trans (h : Still k s s') (h' : Still j s' s'') : Still (k + j) s s'' where
  cursor := h'.cursor.trans h.cursor
  few := by have := h.few; have := h'.few; omega
  unfailed e he := h.unfailed e (h'.unfailed e he)

theorem Still.mono (h : Still k s s') (hk : k ≤ j) : Still j s s' :=
  ⟨h.cursor, h.few.trans (Nat.add_le_add_left hk _), h.unfailed⟩

theorem Still.after (h' : Still 0 s' s'') (h : Still k s s') : Still k s s'' := h.trans h'

/-- The other parts of a scanner may change. -/
theorem Still.congr (h : Still k s s') (hc : s''.cursor = s'.cursor) (ht : s''.tokens = s'.tokens) :
    Still k s s'' := by
  constructor
  · rw [hc, h.cursor]
  · rw [ht]
    exact h.few
  · rw [ht]
    exact h.unfailed

theorem Still.of_eq (hc : s'.cursor = s.cursor) (ht : s'.tokens = s.tokens) : Still 0 s s' :=
  (Still.refl s).congr hc ht

theorem Forward.refl (s : Scanner) : s.Forward s := ⟨.refl _, le_refl _, fun _ => id⟩

theorem Forward.trans (h : s.Forward s') (h' : s'.Forward s'') : s.Forward s'' where
  reaches := h.reaches.trans h'.reaches
  few := h'.few.trans h.few
  unfailed e he := h.unfailed e (h'.unfailed e he)

theorem Still.forward (h : Still 0 s s') : s.Forward s' where
  reaches := by rw [h.cursor]; exact .refl _
  few := by rw [h.cursor]; have := h.few; omega
  unfailed := h.unfailed

theorem forward_moveTo (h : s.cursor.Reaches c) : s.Forward (s.moveTo c) where
  reaches := h
  few := Nat.add_le_add_left (marks_le_of_reaches h) _
  unfailed _ := id

theorem toList_push (s : Scanner) (t : Token) :
    (s.push t).tokens.toList = s.tokens.toList ++ [t] := Array.toList_push

theorem openings_push (s : Scanner) (t : Token) :
    openings (s.push t).tokens.toList = openings s.tokens.toList + openings [t] := by
  rw [toList_push]
  exact List.countP_append

theorem unfailed_push (ht : t.isFailure = false) (e : YamlError)
    (h : .failure e ∈ (s.push t).tokens.toList) : .failure e ∈ s.tokens.toList := by
  rw [toList_push] at h
  refine (List.mem_append.mp h).resolve_right fun hmem => ?_
  rw [← List.mem_singleton.mp hmem] at ht
  cases ht

/-- Pushing a token that opens `k`, here or before it, counts for `k`. -/
theorem still_push (ht : t.isFailure = false) : Still (openings [t]) s (s.push t) where
  cursor := rfl
  few := (openings_push s t).le
  unfailed := unfailed_push ht

theorem still_push_quiet (s : Scanner) (ht : t.Quiet) : Still 0 s (s.push t) := by
  have h := still_push (s := s) ht.unfailed
  rwa [ht.openings_eq] at h

/-- A character that may open something is read as a token, while what stands in front of it has
    turned out to open `k`. -/
theorem Still.read (h : Still k s s') (hmark : isMark s.cursor.here) (hk : k + openings [t] ≤ 1)
    (ht : t.isFailure = false) : s.Forward ((s'.moveTo s'.cursor.step).push t) where
  reaches := by
    show s.cursor.Reaches s'.cursor.step
    rw [h.cursor]
    exact s.cursor.reaches_step
  few := by
    have hrest := marks_step hmark
    have hfew := h.few
    rw [openings_push]
    show openings s'.tokens.toList + openings [t] + marks s'.cursor.step.rest ≤ _
    rw [h.cursor]
    omega
  unfailed e he := h.unfailed e (unfailed_push ht e he)

/-- A token that is put in front of others opens as much as it does behind them. -/
theorem still_insert (i : Nat) (ht : t.isFailure = false) :
    Still (openings [t]) s { s with tokens := s.tokens.insertIdxIfInBounds i t } := by
  unfold Array.insertIdxIfInBounds
  split
  · rename_i hi
    have hperm : (s.tokens.insertIdx i t hi).toList.Perm (t :: s.tokens.toList) := by
      rw [Array.toList_insertIdx]
      exact List.perm_insertIdx t _ (by simpa using hi)
    refine ⟨rfl, ?_, fun e he => ?_⟩
    · have hcount : openings (s.tokens.insertIdx i t hi).toList = openings (t :: s.tokens.toList) :=
        hperm.countP_eq _
      have hcons : openings (t :: s.tokens.toList) = openings [t] + openings s.tokens.toList := by
        unfold openings
        rw [← List.singleton_append, List.countP_append]
      show openings (s.tokens.insertIdx i t hi).toList ≤ _
      omega
    · refine (List.mem_cons.mp (hperm.mem_iff.mp he)).resolve_left fun h => ?_
      rw [← h] at ht
      cases ht
  · exact ⟨rfl, Nat.le_add_right _ _, fun _ => id⟩

/-! ### Steps that stay -/

/-- A step on a text that leaves the place where it is. -/
def Stays (s : Scanner) (x : Step) : Prop := ∀ cs, Sound cs (Still 0 s) x

/-- A step on a text that goes forward. -/
def Advances (s : Scanner) (x : Step) : Prop := Sound s.cursor.rest s.Forward x

theorem still_unwind (s : Scanner) (column : Int) : Still 0 s (s.unwind column) := by
  unfold unwind
  split
  · exact .of_eq rfl rfl
  · rename_i hflow
    clear hflow
    generalize s.indents = outers
    induction outers generalizing s with
    | nil => exact .of_eq rfl rfl
    | cons outer outers ih =>
      rw [unwind.go]
      split
      · have hpush := s.still_push_quiet (t := .blockEnd) ⟨rfl, rfl⟩
        refine Still.trans (k := 0) ?_ (ih _)
        exact hpush.congr rfl rfl
      · exact .of_eq rfl rfl

theorem still_deepen? {column : Nat} (h : s.deepen? column = some s') : Still 0 s s' := by
  unfold deepen? at h
  obtain ⟨-, h⟩ := Option.ite_none_right_eq_some.mp h
  cases h
  exact .of_eq rfl rfl

theorem stays_dropKey (s : Scanner) : s.Stays s.dropKey := by
  intro cs
  unfold dropKey
  split
  · split
    · exact .malformed
    · exact .pure (.of_eq rfl rfl)
  · exact .pure (.of_eq rfl rfl)

theorem stays_noteKey (s : Scanner) : s.Stays s.noteKey := by
  intro cs
  unfold noteKey
  split
  · exact Sound.bind (s.stays_dropKey cs) fun s' hs' => .pure (hs'.congr rfl rfl)
  · exact .pure (.of_eq rfl rfl)

theorem stays_dropStale (s : Scanner) : s.Stays s.dropStale := by
  intro cs
  unfold dropStale
  dsimp only
  split
  · exact .malformed
  · exact .pure (.of_eq rfl rfl)

theorem stays_openBlock (ht : t.Quiet) : s.Stays (s.openBlock t) := by
  intro cs
  unfold openBlock
  split
  · exact .pure (.of_eq rfl rfl)
  · split
    · exact .malformed
    · cases hd : s.deepen? s.cursor.column with
      | none => exact .pure (.of_eq rfl rfl)
      | some s' => exact .pure ((still_deepen? hd).trans (s'.still_push_quiet ht))

theorem stays_closing (s : Scanner) : s.Stays s.closing := by
  intro cs
  unfold closing
  exact Sound.bind (stays_dropKey _ cs) fun s' hs' =>
    .pure (((s.still_unwind (-1)).trans hs').congr rfl rfl)

/-! ### Steps that go forward -/

theorem Stays.advances {x : Step} (h : s.Stays x) : s.Advances x :=
  Sound.mono (h s.cursor.rest) List.suffix_rfl fun _ => Still.forward

theorem Advances.from {x : Step} (h : s'.Advances x) (hs : s.Forward s') : s.Advances x :=
  Sound.mono h hs.reaches fun _ => hs.trans

/-- A quiet token is read up to a place further on. -/
theorem Still.pass (h : Still 0 s s') (hc : s'.cursor.Reaches c) (ht : t.Quiet) :
    s.Forward ((s'.moveTo c).push t) :=
  h.forward.trans ((forward_moveTo hc).trans (still_push_quiet _ ht).forward)

theorem forward_skipBlanks (s : Scanner) : s.Forward s.skipBlanks := by
  have hgo (fuel : Nat) (s : Scanner) : s.Forward (skipBlanks.go fuel s) := by
    induction fuel generalizing s with
    | zero => exact .refl s
    | succ fuel ih =>
      have hskip := (s.cursor.reaches_skip (· == ' ')).trans (Cursor.reaches_skipComment _)
      rw [skipBlanks.go]
      split
      · refine Forward.trans ?_ (ih _)
        exact ⟨hskip.trans (Cursor.reaches_lineBreak _), Nat.add_le_add_left
          (marks_le_of_reaches (hskip.trans (Cursor.reaches_lineBreak _))) _, fun _ => id⟩
      · exact forward_moveTo hskip
  unfold skipBlanks
  dsimp only
  refine Forward.trans (forward_moveTo ?_) (hgo _ _)
  split
  · exact s.cursor.reaches_step
  · exact .refl _

theorem advances_documentMark (ht : t.Quiet) : s.Advances (s.documentMark t) := by
  unfold documentMark
  exact Sound.bind (s.stays_closing _) fun s' hs' =>
    .pure (hs'.pass (s'.cursor.reaches_forward 3) ht)

theorem advances_flowStart (hmark : isMark s.cursor.here) (ht : t.isFailure = false) :
    s.Advances (s.flowStart t) := by
  unfold flowStart
  refine Sound.bind (s.stays_noteKey _) fun s' hs' => .pure ?_
  have hone : 0 + openings [t] ≤ 1 := by
    rw [Nat.zero_add]
    exact List.countP_le_length
  exact Still.read (hs'.congr rfl rfl) hmark hone ht

theorem advances_flowEnd (ht : t.Quiet) : s.Advances (s.flowEnd t) := by
  unfold flowEnd
  exact Sound.bind (s.stays_dropKey _) fun s' hs' =>
    .pure (Still.pass (hs'.congr rfl rfl) s'.cursor.reaches_step ht)

theorem advances_flowEntry (s : Scanner) : s.Advances s.flowEntry := by
  unfold flowEntry
  exact Sound.bind (s.stays_dropKey _) fun s' hs' =>
    .pure (Still.pass (hs'.congr rfl rfl) s'.cursor.reaches_step ⟨rfl, rfl⟩)

/-- A mark may open a block, and what may have been a key in front of it is given up. -/
theorem advances_marked (ht : t.Quiet) (allow : Scanner → Bool) {f : Scanner → Step}
    (hf : ∀ s', Still 0 s s' → Sound s.cursor.rest s.Forward (f s')) :
    s.Advances (s.openBlock t >>= fun s => { s with allowKey := allow s }.dropKey >>= f) := by
  refine Sound.bind (stays_openBlock ht _) fun s' hs' => ?_
  refine Sound.bind (stays_dropKey _ _) fun s'' hs'' => hf s'' ?_
  exact hs''.after (hs'.congr rfl rfl)

theorem advances_blockEntry (hmark : isMark s.cursor.here) : s.Advances s.blockEntry :=
  advances_marked ⟨rfl, rfl⟩ (fun _ => true) fun _ h => .pure (h.read hmark (by decide) rfl)

theorem advances_keyMark (hmark : isMark s.cursor.here) : s.Advances s.keyMark :=
  advances_marked ⟨rfl, rfl⟩ (·.flow == 0) fun _ h => .pure (h.read hmark (by decide) rfl)

/-- A colon makes a key of what stands in front of it. -/
theorem advances_valueMark (hmark : isMark s.cursor.here) : s.Advances s.valueMark := by
  have hread {s' : Scanner} (h : Still 1 s s') :
      s.Forward ((s'.moveTo s'.cursor.step).push .value) := h.read hmark (by decide) rfl
  unfold valueMark
  dsimp only
  split
  · rename_i key hkey
    have hkey : Still 1 s _ := still_insert (t := .key) key.token rfl
    refine Sound.pure (hread ?_)
    split
    · exact hkey.congr rfl rfl
    · cases hd : deepen? _ key.column with
      | none => exact hkey.congr rfl rfl
      | some s' =>
        have hblock : Still 0 s' _ := still_insert (t := .blockMapping) key.token rfl
        exact hblock.after ((still_deepen? hd).after (hkey.congr rfl rfl))
  · exact advances_marked ⟨rfl, rfl⟩ (·.flow == 0) fun _ h => .pure (hread (h.mono (Nat.zero_le 1)))

theorem advances_keyLike {read : Cursor → Except YamlError (Token × Cursor)}
    (h : s.cursor.ReadsToken (read s.cursor)) : s.Advances (s.keyLike read) := by
  unfold keyLike
  refine Sound.bind (s.stays_noteKey _) fun s' hs' => ?_
  rw [hs'.cursor]
  refine Sound.bind h fun r hr => .pure ?_
  have hstill : Still 0 s { s' with allowKey := false } := hs'.congr rfl rfl
  refine hstill.pass ?_ hr.1
  rw [hstill.cursor]
  exact hr.2

theorem advances_block (s : Scanner) : s.Advances s.block := by
  unfold block
  refine Sound.bind (stays_dropKey _ _) fun s' hs' => ?_
  have hcursor : s'.cursor = s.cursor := hs'.cursor
  have hreads := reads_blockScalar s'.indent s'.cursor
  refine Sound.bind (hreads.mono (hcursor ▸ List.suffix_rfl) fun _ h => h) fun r hr => .pure ?_
  exact Still.pass (hs'.after (.of_eq rfl rfl)) hr ⟨rfl, rfl⟩

theorem advances_plain (s : Scanner) : s.Advances s.plain := by
  unfold plain
  refine Sound.bind (s.stays_noteKey _) fun s' hs' => ?_
  have hreaches := reaches_plainScalar (s'.flow != 0) s'.indent s'.cursor
  generalize plainScalar (s'.flow != 0) s'.indent s'.cursor = r at hreaches ⊢
  exact .pure (Still.pass (hs'.congr rfl rfl) hreaches ⟨rfl, rfl⟩)

/-! ### The run -/

theorem Advances.ite {p : Prop} [Decidable p] {x y : Step} (hx : p → s.Advances x)
    (hy : s.Advances y) : s.Advances (if p then x else y) := by
  split
  · exact hx ‹_›
  · exact hy

theorem advances_directive (h : s.cursor.here = '%') :
    s.Advances (s.closing >>= fun s => readDirective s.cursor >>= fun r =>
      pure ((s.moveTo r.2).push r.1)) := by
  refine Sound.bind (s.stays_closing _) fun s' hs' => ?_
  have hdirective := readsToken_readDirective h
  rw [← hs'.cursor] at hdirective ⊢
  exact Sound.bind hdirective fun r hr => .pure (hs'.pass hr.2 hr.1)

/-- A name behind a mark is a quiet token. -/
theorem readsToken_mark {f : List Char → Token} (hf : ∀ name, (f name).Quiet) (c : Cursor) :
    c.ReadsToken ((anchorName c.step).map fun r => (f r.1, r.2)) :=
  ((reads_anchorName _).from c.reaches_step).map fun _ hr => ⟨hf _, hr⟩

theorem advances_readToken (s : Scanner) : s.Advances s.readToken := by
  have hmarked {ch : Char} (h : (s.cursor.here == ch) = true) (hch : isMark ch) :
      isMark s.cursor.here := by
    rw [beq_iff_eq.mp h]
    exact hch
  unfold readToken
  refine .ite (fun h => ?_) (.ite (fun _ => ?_) (.ite (fun h => ?_) (.ite (fun h => ?_)
    (.ite (fun _ => ?_) (.ite (fun _ => ?_) (.ite (fun _ => ?_) (.ite (fun h => ?_)
    (.ite (fun h => ?_) (.ite (fun h => ?_) ?_)))))))))
  · exact advances_directive (beq_iff_eq.mp (Bool.and_eq_true_iff.mp h).1)
  · refine advances_documentMark ?_
    split <;> exact ⟨rfl, rfl⟩
  · exact advances_flowStart (hmarked h rfl) rfl
  · exact advances_flowStart (hmarked h rfl) rfl
  · exact advances_flowEnd ⟨rfl, rfl⟩
  · exact advances_flowEnd ⟨rfl, rfl⟩
  · exact advances_flowEntry s
  · exact advances_blockEntry (hmarked (Bool.and_eq_true_iff.mp h).1 rfl)
  · exact advances_keyMark (hmarked (Bool.and_eq_true_iff.mp h).1 rfl)
  · exact advances_valueMark (hmarked (Bool.and_eq_true_iff.mp h).1 rfl)
  · refine .ite (fun _ => ?_) (.ite (fun _ => ?_) (.ite (fun _ => ?_) (.ite (fun _ => ?_)
      (.ite (fun _ => ?_) (.ite (fun _ => s.advances_plain) .malformed)))))
    · exact advances_keyLike (readsToken_mark (fun _ => ⟨rfl, rfl⟩) _)
    · exact advances_keyLike (readsToken_mark (fun _ => ⟨rfl, rfl⟩) _)
    · exact advances_keyLike (readsToken_readTag _)
    · exact s.advances_block
    · exact advances_keyLike ((reads_quotedScalar _).map fun _ hr => ⟨⟨rfl, rfl⟩, hr⟩)

/-- What the next token comes to, if there is one. -/
theorem sound_step? (s : Scanner) :
    Sound s.cursor.rest (fun r => ∀ s', r = some s' → s.Forward s') s.step? := by
  unfold step?
  refine Sound.bind ((stays_dropStale _).advances.from s.forward_skipBlanks) fun s' hs' => ?_
  have hunwound := hs'.trans (s'.still_unwind s'.cursor.column).forward
  dsimp only
  split
  · exact .pure fun _ h => by cases h
  · exact ((advances_readToken _).from hunwound).map fun _ h _ heq => Option.some.inj heq ▸ h

end Scanner

/-- Tokens for which a text accounts: it has as many marks as they open, and it is malformed or has
    a blot where they have a failure. -/
structure Accounted (cs : List Char) (ts : List Token) : Prop where
  few : openings ts ≤ marks cs
  failure : ∀ e, .failure e ∈ ts → e = .malformed ∨ Blot cs e

namespace Scanner

variable {s : Scanner} {cs : List Char}

/-- The last token of a run is a failure, or the end. -/
theorem accounted_push {t : Token} (h : (ofText cs).Forward s) (ht : t.isOpening = false)
    (hfailure : ∀ e, t = .failure e → e = .malformed ∨ Blot cs e) :
    Accounted cs (s.tokens.push t).toList := by
  rw [Array.toList_push]
  constructor
  · have hlast : openings [t] = 0 := by
      rw [openings, List.countP_singleton, ht]
      rfl
    have hfew : openings s.tokens.toList + marks s.cursor.rest ≤ 0 + marks cs := h.few
    have happend : openings (s.tokens.toList ++ [t]) = openings s.tokens.toList + openings [t] :=
      List.countP_append
    omega
  · intro e he
    rcases List.mem_append.mp he with he | he
    · cases h.unfailed e he
    · exact hfailure e (List.mem_singleton.mp he).symm

theorem accounted_failure {e : YamlError} {x : Except YamlError α} {P : α → Prop}
    (h : (ofText cs).Forward s) (hx : Sound s.cursor.rest P x) (he : x = .error e) :
    Accounted cs (s.tokens.push (.failure e)).toList := by
  refine accounted_push h rfl fun e' heq => ?_
  cases heq
  cases hx with
  | pure => cases he
  | malformed => exact Or.inl (Except.error.inj he).symm
  | blot hblot => exact Or.inr (Except.error.inj he ▸ hblot.mono h.reaches)

theorem accounted_run (fuel : Nat) (h : (ofText cs).Forward s) :
    Accounted cs (run fuel s).toList := by
  induction fuel generalizing s with
  | zero => exact accounted_push h rfl fun e heq => Or.inl (Token.failure.inj heq).symm
  | succ fuel ih =>
    have hstep := s.sound_step?
    have hclosing := (s.skipBlanks.stays_closing).advances.from s.forward_skipBlanks
    rw [run]
    unfold readOn
    cases hs : s.step? with
    | error e => exact accounted_failure h hstep hs
    | ok next =>
      rw [hs] at hstep
      cases next with
      | some s' => exact ih (h.trans (hstep.of_ok s' rfl))
      | none =>
        cases hend : s.skipBlanks.closing with
        | error e => exact accounted_failure h hclosing hend
        | ok s' =>
          rw [hend] at hclosing
          exact accounted_push (h.trans (Sound.of_ok hclosing)) rfl fun e heq => by cases heq

end Scanner

/-- **Tokens.** The tokens of a text open no more than it has marks, and where they end in a failure
    the text is malformed or has a blot. -/
theorem accounted_tokensOf (cs : List Char) : Accounted cs (tokensOf cs) :=
  Scanner.accounted_run _ (.refl _)

end SourceAtlas.Yaml
