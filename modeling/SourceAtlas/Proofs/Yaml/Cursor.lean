import SourceAtlas.Yaml.Token

/-!
# Reading forward

A place in a text only moves forward: what is still to be read is an end of what was. And a text
that cannot be read is malformed, but for two faults that its characters show: a code that no
character has, and a version with too long a number.

Results:
* `Cursor.Reaches`: one place lies behind another; each movement keeps it.
* `Blot`: what in a text keeps it from being read without being malformed.
* `Sound`: what a step of reading may come to, with `Sound.bind` for one step behind another.
-/

namespace SourceAtlas.Yaml

/-! ## Places -/

namespace Cursor

variable {c c' d : Cursor}

/-- A place is reached from another: what is still to be read there is an end of what was. -/
def Reaches (c c' : Cursor) : Prop := c'.rest <:+ c.rest

theorem Reaches.refl (c : Cursor) : c.Reaches c := List.suffix_rfl

theorem Reaches.trans (h : c.Reaches c') (h' : c'.Reaches d) : c.Reaches d :=
  List.IsSuffix.trans h' h

theorem rest_step (c : Cursor) : c.step.rest = c.rest.tail := by
  unfold step
  split
  · rename_i h
    rw [h, List.tail_nil]
  · rename_i h
    rw [h, List.tail_cons]
    split <;> rfl

theorem rest_forward (c : Cursor) (n : Nat) : (c.forward n).rest = c.rest.drop n := by
  induction n generalizing c with
  | zero => rfl
  | succ n ih => rw [forward, ih, rest_step, List.drop_tail]

/-- What passes a test stands in front of what is left behind it. -/
theorem rest_eq_span (p : Char → Bool) (c : Cursor) :
    c.rest = (c.span p).1 ++ (c.span p).2.rest := by
  show c.rest = c.rest.takeWhile p ++ (c.forward (c.rest.takeWhile p).length).rest
  rw [rest_forward]
  exact (List.prefix_iff_eq_append.mp (List.takeWhile_prefix p)).symm

theorem reaches_step (c : Cursor) : c.Reaches c.step := by
  unfold Reaches
  rw [rest_step]
  exact List.tail_suffix _

theorem reaches_forward (c : Cursor) (n : Nat) : c.Reaches (c.forward n) := by
  unfold Reaches
  rw [rest_forward]
  exact List.drop_suffix n _

theorem reaches_span (p : Char → Bool) (c : Cursor) : c.Reaches (c.span p).2 :=
  reaches_forward c _

theorem reaches_skip (p : Char → Bool) (c : Cursor) : c.Reaches (c.skip p) := reaches_span p c

theorem reaches_lineBreak (c : Cursor) : c.Reaches c.lineBreak.2 := by
  unfold lineBreak
  dsimp only
  split
  · exact reaches_forward c 2
  · split
    · exact reaches_step c
    · split
      · exact reaches_step c
      · exact .refl c

theorem reaches_skipComment (c : Cursor) : c.Reaches c.skipComment := by
  unfold skipComment
  split
  · exact reaches_skip _ c
  · exact .refl c

/-- The character here stands in front of what is still to be read behind it. -/
theorem rest_of_here {ch : Char} (h : c.here = ch) (hch : isEnd ch = false) :
    c.rest = ch :: c.step.rest := by
  rw [rest_step]
  unfold here peek at h
  cases hrest : c.rest with
  | nil =>
    rw [hrest] at h
    subst h
    cases hch
  | cons d rest =>
    rw [hrest] at h
    rw [List.tail_cons, ← h]
    rfl

end Cursor

/-! ## Faults -/

/-- What in a text keeps it from being read, though it may be well formed: behind a backslash a
    code that no character has, and in a version a number with too many digits. -/
inductive Blot (cs : List Char) : YamlError → Prop
  | code (front digits back : List Char) {n : Nat} {e : YamlError}
      (htext : cs = front ++ '\\' :: 'U' :: digits ++ back) (hlength : digits.length = 8)
      (hn : hexNumber? digits = some n) (he : charOfCode n = .error e) : Blot cs e
  | version (front between digits back : List Char)
      (htext : cs = front ++ "%YAML".toList ++ between ++ digits ++ back)
      (hbetween : ∀ c ∈ between, c = ' ' ∨ c.isDigit ∨ c = '.')
      (hdigits : ∀ d ∈ digits, d.isDigit) (hmany : Number.maxDigits < digits.length) :
      Blot cs .badScalar

theorem Blot.mono {cs cs' : List Char} {e : YamlError} (hcs : cs <:+ cs') (h : Blot cs e) :
    Blot cs' e := by
  obtain ⟨before, rfl⟩ := hcs
  cases h with
  | code front digits back htext hlength hn he =>
    exact .code (before ++ front) digits back (by rw [htext]; simp) hlength hn he
  | version front between digits back htext hbetween hdigits hmany =>
    exact .version (before ++ front) between digits back (by rw [htext]; simp) hbetween hdigits
      hmany

/-- What a step of reading may come to on a text: an answer as it should be, or a failure that the
    text accounts for. -/
inductive Sound {α : Type} (cs : List Char) (P : α → Prop) : Except YamlError α → Prop
  | pure {a : α} (h : P a) : Sound cs P (.ok a)
  | malformed : Sound cs P (.error .malformed)
  | blot {e : YamlError} (h : Blot cs e) : Sound cs P (.error e)

namespace Sound

variable {α β : Type} {cs cs' : List Char} {P P' : α → Prop} {Q : β → Prop}
  {x : Except YamlError α} {f : α → Except YamlError β}

theorem of_ok {a : α} (h : Sound cs P (.ok a)) : P a := by
  cases h
  assumption

theorem mono (h : Sound cs P x) (hcs : cs <:+ cs') (hP : ∀ a, P a → P' a) : Sound cs' P' x := by
  cases h with
  | pure h => exact .pure (hP _ h)
  | malformed => exact .malformed
  | blot h => exact .blot (h.mono hcs)

theorem bind (h : Sound cs P x) (hf : ∀ a, P a → Sound cs Q (f a)) : Sound cs Q (x >>= f) := by
  cases h with
  | pure h => exact hf _ h
  | malformed => exact .malformed
  | blot h => exact .blot h

theorem map {g : α → β} (h : Sound cs P x) (hg : ∀ a, P a → Q (g a)) : Sound cs Q (x.map g) := by
  cases h with
  | pure h => exact .pure (hg _ h)
  | malformed => exact .malformed
  | blot h => exact .blot h

end Sound

/-- A part of a text is read from a place on: the place behind it is reached. -/
def Cursor.Reads {α : Type} (c : Cursor) (x : Except YamlError (α × Cursor)) : Prop :=
  Sound c.rest (fun r => c.Reaches r.2) x

theorem Cursor.Reads.from {α : Type} {c c' : Cursor} {x : Except YamlError (α × Cursor)}
    (hc : c.Reaches c') (h : c'.Reads x) : c.Reads x :=
  Sound.mono h hc fun _ hr => hc.trans hr

end SourceAtlas.Yaml
