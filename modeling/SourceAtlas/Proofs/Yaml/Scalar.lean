import Mathlib.Tactic.Ring
import SourceAtlas.Proofs.Yaml.Cursor

/-!
# Texts of scalars

However a scalar is written, its text is read forward, and only an escape can keep a scalar in
quotes from being read without its being malformed.

Results:
* `reads_quotedScalar`: a scalar in quotes, its escapes included.
* `reads_blockScalar`, `reaches_plainScalar`: blocks of lines and plain scalars, which have none.
-/

namespace SourceAtlas.Yaml

variable {c d : Cursor} {out : List Char}

theorem Cursor.sound_endLine (c : Cursor) : Sound c.rest (fun d => c.Reaches d) c.endLine := by
  unfold endLine
  dsimp only
  split
  · exact .pure (((reaches_skip _ c).trans (reaches_skipComment _)).trans (reaches_lineBreak _))
  · exact .malformed

/-! ## In quotes -/

theorem reads_quotedBreaks (fuel : Nat) (c : Cursor) (out : List Char) :
    c.Reads (quotedBreaks fuel c out) := by
  induction fuel generalizing c out with
  | zero => exact .malformed
  | succ fuel ih =>
    rw [quotedBreaks]
    split
    · exact .malformed
    · have hskip := c.reaches_skip fun ch => ch == ' ' || ch == '\t'
      dsimp only
      split
      · exact .from (hskip.trans (Cursor.reaches_lineBreak _)) (ih _ _)
      · exact .pure hskip

theorem reads_quotedSpaces (fuel : Nat) (c : Cursor) : c.Reads (quotedSpaces fuel c) := by
  have hspan := c.reaches_span fun ch => ch == ' ' || ch == '\t'
  unfold quotedSpaces
  dsimp only
  split
  · exact .malformed
  · split
    · exact Sound.bind ((reads_quotedBreaks fuel _ []).from
        (hspan.trans (Cursor.reaches_lineBreak _))) fun _ hr => .pure hr
    · exact .pure hspan

/-! ## Escapes -/

theorem foldl_hex_lt {vs : List Nat} (h : ∀ v ∈ vs, v < 16) (n : Nat) :
    vs.foldl (fun n v => 16 * n + v) n < (n + 1) * 16 ^ vs.length := by
  induction vs generalizing n with
  | nil => simp
  | cons v vs ih =>
    have hv : v < 16 := h v List.mem_cons_self
    have hrest := ih (fun w hw => h w (List.mem_cons_of_mem v hw)) (16 * n + v)
    calc vs.foldl (fun n v => 16 * n + v) (16 * n + v)
        < (16 * n + v + 1) * 16 ^ vs.length := hrest
      _ ≤ ((n + 1) * 16) * 16 ^ vs.length := Nat.mul_le_mul_right _ (by omega)
      _ = (n + 1) * 16 ^ (v :: vs).length := by rw [List.length_cons]; ring

theorem hexValue?_lt {c : Char} {v : Nat} (h : Json.hexValue? c = some v) : v < 16 := by
  have hle (a b : Char) : a ≤ b ↔ a.toNat ≤ b.toNat := Iff.rfl
  have hcodes : '0'.toNat = 48 ∧ '9'.toNat = 57 ∧ 'a'.toNat = 97 ∧ 'f'.toNat = 102 ∧
    'A'.toNat = 65 ∧ 'F'.toNat = 70 := by decide
  unfold Json.hexValue? at h
  split at h
  · rename_i hdigit
    simp only [Char.isDigit, Bool.and_eq_true, decide_eq_true_eq] at hdigit
    have hnine : c.toNat ≤ 57 := hdigit.2
    cases h
    omega
  · split at h
    · rename_i hsmall
      rw [Bool.and_eq_true, decide_eq_true_eq, decide_eq_true_eq, hle, hle] at hsmall
      cases h
      omega
    · split at h
      · rename_i hgreat
        rw [Bool.and_eq_true, decide_eq_true_eq, decide_eq_true_eq, hle, hle] at hgreat
        cases h
        omega
      · cases h

theorem hexValues_lt {ds : List Char} {vs : List Nat} (h : ds.mapM Json.hexValue? = some vs) :
    vs.length = ds.length ∧ ∀ v ∈ vs, v < 16 := by
  induction ds generalizing vs with
  | nil =>
    cases h
    simp
  | cons d ds ih =>
    rw [List.mapM_cons] at h
    obtain ⟨v, hv, h⟩ := Option.bind_eq_some_iff.mp h
    obtain ⟨rest, hrest, h⟩ := Option.bind_eq_some_iff.mp h
    cases h
    obtain ⟨hlength, hlt⟩ := ih hrest
    exact ⟨congrArg (· + 1) hlength, List.forall_mem_cons.mpr ⟨hexValue?_lt hv, hlt⟩⟩

/-- A number with few hexadecimal digits is small. -/
theorem hexNumber?_lt {ds : List Char} {n : Nat} (h : hexNumber? ds = some n) :
    n < 16 ^ ds.length := by
  obtain ⟨vs, hvs, rfl⟩ := Option.map_eq_some_iff.mp h
  obtain ⟨hlength, hlt⟩ := hexValues_lt hvs
  have hn := foldl_hex_lt hlt 0
  rwa [hlength, Nat.zero_add, Nat.one_mul] at hn

theorem charOfCode_of_le {n : Nat} (h : n ≤ 0x10FFFF) : ∃ c, charOfCode n = .ok c := by
  unfold charOfCode
  rw [if_neg (by omega), if_neg (by omega)]
  exact ⟨_, rfl⟩

/-- Only an escape with eight digits can write a code that no character has. -/
theorem escapeDigits?_cases {c : Char} {n : Nat} (h : escapeDigits? c = some n) :
    n ≤ 4 ∨ c = 'U' ∧ n = 8 := by
  unfold escapeDigits? at h
  split at h <;> cases h <;> decide

theorem reads_readEscape (fuel : Nat) {c : Cursor} (h : c.here = '\\') :
    c.Reads (readEscape fuel c.step) := by
  have hstep := c.reaches_step
  unfold readEscape
  split
  · exact .pure (hstep.trans (Cursor.reaches_step _))
  · split
    · rename_i n hn
      dsimp only
      split
      · rename_i code hcode
        obtain ⟨hlength, hcode⟩ := Option.ite_none_right_eq_some.mp hcode
        rw [beq_iff_eq] at hlength
        refine Sound.bind (P := fun _ => True) ?_ fun ch _ =>
          .pure ((hstep.trans (Cursor.reaches_step _)).trans (Cursor.reaches_forward _ n))
        cases hchar : charOfCode code with
        | ok ch => exact .pure trivial
        | error e =>
          rcases escapeDigits?_cases hn with hfew | ⟨hletter, rfl⟩
          · have hsmall := hexNumber?_lt hcode
            have hpow : 16 ^ n ≤ 16 ^ 4 := Nat.pow_le_pow_right (by decide) hfew
            rw [hlength] at hsmall
            obtain ⟨ch, hch⟩ := charOfCode_of_le (n := code) (by omega)
            rw [hch] at hchar
            cases hchar
          · refine .blot (.code [] _ (c.step.step.rest.drop 8) ?_ hlength hcode hchar)
            rw [Cursor.rest_of_here h rfl, Cursor.rest_of_here hletter rfl, List.nil_append,
              List.cons_append, List.cons_append, List.take_append_drop]
      · exact .malformed
    · split
      · exact (reads_quotedBreaks fuel _ []).from (hstep.trans (Cursor.reaches_lineBreak _))
      · exact .malformed

theorem reads_quotedRest (double : Bool) (fuel : Nat) (c : Cursor) (out : List Char) :
    c.Reads (quotedRest double fuel c out) := by
  induction fuel generalizing c out with
  | zero => exact .malformed
  | succ fuel ih =>
    rw [quotedRest]
    dsimp only
    generalize (if double then '"' else '\'') = quote
    split
    · split
      · exact .from (c.reaches_forward 2) (ih _ _)
      · exact .pure c.reaches_step
    · split
      · have hspaces := reads_quotedSpaces (fuel + 1) c
        split
        · rename_i e he
          rw [he] at hspaces
          exact hspaces
        · rename_i more next hmore
          rw [hmore] at hspaces
          exact .from hspaces.of_ok (ih _ _)
      · split
        · rename_i hback
          rw [Bool.and_eq_true, beq_iff_eq] at hback
          have hescape := reads_readEscape (fuel + 1) hback.2
          split
          · rename_i e he
            rw [he] at hescape
            exact hescape
          · rename_i more next hmore
            rw [hmore] at hescape
            exact .from hescape.of_ok (ih _ _)
        · split
          · exact .from c.reaches_step (ih _ _)
          · exact .from (c.reaches_span _) (ih _ _)

theorem reads_quotedScalar (c : Cursor) : c.Reads (quotedScalar c) :=
  .from c.reaches_step (reads_quotedRest _ _ _ _)

/-! ## Blocks of lines -/

theorem sound_indentDigit? (cs : List Char) (ch : Char) :
    Sound cs (fun _ => True) (indentDigit? ch) := by
  unfold indentDigit?
  split
  · split
    · exact .malformed
    · exact .pure trivial
  · exact .pure trivial

theorem sound_blockSigns (c : Cursor) :
    Sound c.rest (fun r => c.Reaches r.2.2) (blockSigns c) := by
  have hstep := c.reaches_step
  unfold blockSigns
  split
  · refine Sound.bind (sound_indentDigit? _ _) fun digit _ => ?_
    cases digit with
    | some n => exact .pure (hstep.trans (Cursor.reaches_step _))
    | none => exact .pure hstep
  · refine Sound.bind (sound_indentDigit? _ _) fun digit _ => ?_
    cases digit with
    | some n =>
      dsimp only
      split
      · exact .pure (hstep.trans (Cursor.reaches_step _))
      · exact .pure hstep
    | none => exact .pure (.refl c)

theorem reaches_blockIndentation (fuel : Nat) (c : Cursor) (out : List Char) (most : Nat) :
    c.Reaches (blockIndentation fuel c out most).2.2 := by
  induction fuel generalizing c out most with
  | zero => exact .refl c
  | succ fuel ih =>
    rw [blockIndentation]
    dsimp only
    split
    · exact c.reaches_step.trans (ih _ _ _)
    · split
      · exact c.reaches_lineBreak.trans (ih _ _ _)
      · exact .refl c

theorem reaches_blockBreaks (indent fuel : Nat) (c : Cursor) (out : List Char) :
    c.Reaches (blockBreaks indent fuel c out).2 := by
  induction fuel generalizing c out with
  | zero => exact .refl c
  | succ fuel ih =>
    have hskip : c.Reaches (skipIndent indent c) := c.reaches_forward _
    rw [blockBreaks]
    dsimp only
    split
    · exact (hskip.trans (Cursor.reaches_lineBreak _)).trans (ih _ _)
    · exact hskip

theorem reaches_blockLines (folded : Bool) (indent fuel : Nat) (c : Cursor)
    (breaks out : List Char) :
    c.Reaches (blockLines folded indent fuel c breaks out).2.2.2 := by
  induction fuel generalizing c breaks out with
  | zero => exact .refl c
  | succ fuel ih =>
    have hline :
        c.Reaches (blockBreaks indent (fuel + 1) (c.span (!isBreak ·)).2.lineBreak.2 []).2 :=
      ((c.reaches_span _).trans (Cursor.reaches_lineBreak _)).trans (reaches_blockBreaks _ _ _ _)
    rw [blockLines]
    dsimp only
    split
    · exact hline.trans (ih _ _ _)
    · dsimp only
      exact hline

theorem reaches_blockBody (folded : Bool) (least : Nat) (digit : Option Nat) (c : Cursor) :
    c.Reaches (blockBody folded least digit c).2.2.2 := by
  unfold blockBody
  generalize c.rest.length + 1 = fuel
  cases digit with
  | some n =>
    have hbreaks := reaches_blockBreaks (least + n - 1) fuel c []
    dsimp only
    split
    · exact hbreaks.trans (reaches_blockLines _ _ _ _ _ _)
    · exact hbreaks
  | none =>
    have hindent := reaches_blockIndentation fuel c [] 0
    dsimp only
    split
    · exact hindent.trans (reaches_blockLines _ _ _ _ _ _)
    · exact hindent

theorem reads_blockScalar (parent : Int) (c : Cursor) : c.Reads (blockScalar parent c) := by
  unfold blockScalar
  refine Sound.bind ((sound_blockSigns c.step).mono c.reaches_step fun _ hr =>
    c.reaches_step.trans hr) fun signs hsigns => ?_
  dsimp only
  split
  · exact .malformed
  · refine Sound.bind ((Cursor.sound_endLine signs.2.2).mono hsigns fun _ hd => hsigns.trans hd)
      fun d hd => .pure (hd.trans (reaches_blockBody _ _ _ _))

/-! ## Plain -/

theorem reaches_plainBreaks (fuel : Nat) (c : Cursor) (out : List Char) :
    c.Reaches (plainBreaks fuel c out).2 := by
  induction fuel generalizing c out with
  | zero => exact .refl c
  | succ fuel ih =>
    rw [plainBreaks]
    split
    · exact c.reaches_step.trans (ih _ _)
    · split
      · dsimp only
        split
        · exact c.reaches_lineBreak
        · exact c.reaches_lineBreak.trans (ih _ _)
      · exact .refl c

theorem reaches_plainSpaces (c : Cursor) : c.Reaches (plainSpaces c).2.2 := by
  have hspan := c.reaches_span (· == ' ')
  unfold plainSpaces
  dsimp only
  split
  · have hline := hspan.trans (Cursor.reaches_lineBreak _)
    split
    · exact hline
    · have hbreaks := hline.trans (reaches_plainBreaks
        ((c.span (· == ' ')).2.lineBreak.2.rest.length + 1) _ [])
      split
      · rename_i d hd
        rw [hd] at hbreaks
        exact hbreaks
      · rename_i more d hd
        rw [hd] at hbreaks
        exact hbreaks
  · exact hspan

theorem reaches_plainRest (inFlow : Bool) (indent : Int) (fuel : Nat) (c : Cursor)
    (out : List Char) (crossed : Bool) :
    c.Reaches (plainRest inFlow indent fuel c out crossed).2.2 := by
  induction fuel generalizing c out crossed with
  | zero => exact .refl c
  | succ fuel ih =>
    rw [plainRest]
    dsimp only
    generalize (if c.here == '#' then 0 else plainLength inFlow c.rest) = n
    have hpart := (c.reaches_forward n).trans (reaches_plainSpaces _)
    split
    · exact .refl c
    · split
      · exact hpart
      · split
        · exact hpart
        · exact hpart.trans (ih _ _ _)

theorem reaches_plainScalar (inFlow : Bool) (parent : Int) (c : Cursor) :
    c.Reaches (plainScalar inFlow parent c).2.2 := reaches_plainRest _ _ _ _ _ _

end SourceAtlas.Yaml
