import SourceAtlas.Json.Read

/-!
# How deep a text is nested

A value is read from the start of a text, and what is left is the end of the text. A text is refused
for its depth only where it opens more lists and objects than may be nested, whether or not it
closes them.

Results:
* `value_bounded`: what is left behind a value, and how much a text opens whose value is too deep.
* `lt_openings_of_tooDeep`: a text that is refused for its depth opens more lists and objects than
  may be nested.
* `read_ne_tooDeep`: no text is refused for its depth if that is not bounded.
-/

namespace SourceAtlas.Json

open Number

/-- Whether a character opens a list or an object. -/
def isOpening (c : Char) : Bool := c == '[' || c == '\x7b'

/-- How many characters of a text would open a list or an object. -/
def openings (cs : List Char) : Nat := cs.countP isOpening

/-- What a step may come to on a text, at a depth that is left: it leaves an end of the text, and is
    too deep only if the text opens more than the depth. -/
def Bounded {α : Type} (depth : Nat) (cs : List Char) : Step α → Prop
  | .ok (_, rest) => rest <:+ cs
  | .error .tooDeep => depth < openings cs
  | .error _ => True

namespace Bounded

variable {α β : Type} {depth : Nat} {cs cs' : List Char} {s : Step α}

theorem mono (hcs : cs <:+ cs') (h : Bounded depth cs s) : Bounded depth cs' s := by
  match s, h with
  | .ok _, h => exact h.trans hcs
  | .error .tooDeep, h => exact Nat.lt_of_lt_of_le h (hcs.sublist.countP_le)
  | .error .malformed, _ | .error .tooManyDigits, _ => trivial

theorem map {f : α → β} (h : Bounded depth cs s) :
    Bounded depth cs (s.map fun (a, rest) => (f a, rest)) := by
  match s, h with
  | .ok _, h => exact h
  | .error .tooDeep, h => exact h
  | .error .malformed, _ | .error .tooManyDigits, _ => trivial

theorem ofError {e : ReadError} (h : Bounded depth cs (.error e : Step α)) :
    Bounded depth cs (.error e : Step β) := by
  cases e <;> exact h

/-- No depth is left only if the text opens something. -/
theorem tooDeep {c : Char} (hc : isOpening c) (hd : depth = 0) :
    Bounded depth (c :: cs) (.error .tooDeep : Step α) := by
  have hcons : openings (c :: cs) = openings cs + 1 := List.countP_cons_of_pos hc
  show depth < openings (c :: cs)
  omega

/-- What is read behind an opening character may be one less deep. -/
theorem opened {c : Char} (hc : isOpening c) (hcs : cs' <:+ cs)
    (h : Bounded (depth - 1) cs' s) : Bounded depth (c :: cs) s := by
  match s, h with
  | .ok _, h => exact h.trans (hcs.trans (List.suffix_cons c cs))
  | .error .tooDeep, h =>
    have hle : openings cs' ≤ openings cs := hcs.sublist.countP_le
    have hcons : openings (c :: cs) = openings cs + 1 := List.countP_cons_of_pos hc
    have hlt : depth - 1 < openings cs' := h
    show depth < openings (c :: cs)
    omega
  | .error .malformed, _ | .error .tooManyDigits, _ => trivial

end Bounded

/-! ## Parts of a text -/

theorem skipSpace_suffix (cs : List Char) : skipSpace cs <:+ cs := List.dropWhile_suffix _

/-- What follows the first character behind blanks. -/
theorem suffix_of_skipSpace {c : Char} {rest more cs : List Char} (h : skipSpace rest = c :: more)
    (hrest : rest <:+ cs) : more <:+ cs := by
  have hskip := skipSpace_suffix rest
  rw [h] at hskip
  exact ((List.suffix_cons c more).trans hskip).trans hrest

theorem afterWord?_suffix {ws cs rest : List Char} (h : afterWord? ws cs = some rest) :
    rest <:+ cs := by
  induction ws generalizing cs with
  | nil =>
    cases h
    exact List.suffix_rfl
  | cons w ws ih =>
    cases cs with
    | nil => cases h
    | cons c cs =>
      rw [afterWord?] at h
      split at h
      · exact (ih h).trans (List.suffix_cons c cs)
      · cases h

theorem digits_suffix (cs : List Char) : (digits cs).2 <:+ cs := List.dropWhile_suffix _

theorem fraction_suffix (cs : List Char) : (fraction cs).2 <:+ cs := by
  unfold fraction
  split
  · dsimp only
    split
    · exact List.suffix_rfl
    · exact (digits_suffix _).trans (List.suffix_cons _ _)
  · exact List.suffix_rfl

theorem splitSign_suffix (cs : List Char) : (splitSign cs).2 <:+ cs := by
  unfold splitSign
  split
  · exact List.suffix_cons _ _
  · exact List.suffix_cons _ _
  · exact List.suffix_rfl

theorem exponent_suffix (cs : List Char) : (exponent cs).2 <:+ cs := by
  unfold exponent
  split
  · rename_i c rest
    split
    · dsimp only
      split
      · exact List.suffix_rfl
      · exact (digits_suffix _).trans ((splitSign_suffix rest).trans (List.suffix_cons c rest))
    · exact List.suffix_rfl
  · exact List.suffix_rfl

theorem unicode?_suffix {cs rest : List Char} {c : Char} (h : unicode? cs = some (c, rest)) :
    rest <:+ cs := by
  have hdrop : cs.drop 4 <:+ cs := List.drop_suffix 4 cs
  unfold unicode? at h
  cases hu : unit? cs with
  | none => simp [hu] at h
  | some high =>
    simp only [hu, Option.pure_def, Option.bind_eq_bind, Option.bind_some] at h
    -- A unit is left out of what follows; a second one only with what announces it.
    split at h
    · split at h
      · rename_i more hrest
        have hmore : more.drop 4 <:+ cs.drop 4 := by
          rw [hrest]
          exact (List.drop_suffix 4 more).trans
            ((List.suffix_cons 'u' more).trans (List.suffix_cons '\\' ('u' :: more)))
        split at h
        · split at h
          · exact (Prod.mk.inj (Option.some.inj h)).2 ▸ hmore.trans hdrop
          · exact (Prod.mk.inj (Option.some.inj h)).2 ▸ hdrop
        · exact (Prod.mk.inj (Option.some.inj h)).2 ▸ hdrop
      · exact (Prod.mk.inj (Option.some.inj h)).2 ▸ hdrop
    · exact (Prod.mk.inj (Option.some.inj h)).2 ▸ hdrop

theorem string?_bounded (depth fuel : Nat) (cs out : List Char) :
    Bounded depth cs (string? fuel cs out) := by
  induction fuel generalizing cs out with
  | zero => trivial
  | succ fuel ih =>
    cases cs with
    | nil => trivial
    | cons c cs =>
      have hcons := List.suffix_cons c cs
      unfold string?
      split
      · exact hcons
      · split
        · split
          · rename_i more
            split
            · rename_i rest hrest
              exact (ih rest _).mono
                (((unicode?_suffix hrest).trans (List.suffix_cons _ more)).trans hcons)
            · trivial
          · rename_i more _
            split
            · exact (ih more _).mono ((List.suffix_cons _ more).trans hcons)
            · trivial
          · trivial
        · split
          · trivial
          · exact (ih cs _).mono hcons

theorem number?_bounded (depth : Nat) (cs : List Char) : Bounded depth cs (number? cs) := by
  unfold number?
  split
  rename_i negative body hsign
  have hbody : body <:+ cs := by
    split at hsign
    · cases hsign
      exact List.suffix_cons _ _
    · cases hsign
      exact List.suffix_rfl
  split
  · rename_i rest hword
    exact (afterWord?_suffix hword).trans hbody
  · split
    rename_i whole rest hwhole
    have hrest : rest <:+ body := by
      split at hwhole
      · cases hwhole
        exact List.suffix_cons _ _
      · have hdigits := digits_suffix body
        rw [hwhole] at hdigits
        exact hdigits
    have hend : (exponent (fraction rest).2).2 <:+ cs :=
      (exponent_suffix _).trans ((fraction_suffix rest).trans (hrest.trans hbody))
    split
    · trivial
    · dsimp only
      split
      · split
        · trivial
        · exact hend
      · exact hend

/-! ## Values -/

mutual

/-- A value leaves an end of its text, and is too deep only if the text opens more lists and objects
    than may be nested. -/
theorem value_bounded (fuel depth : Nat) (cs : List Char) :
    Bounded depth cs (value fuel depth cs) := by
  match fuel with
  | 0 =>
    unfold value
    trivial
  | fuel + 1 =>
    unfold value
    split
    · rename_i rest
      exact ((string?_bounded depth _ rest []).mono (List.suffix_cons _ rest)).map
    · rename_i rest
      split
      · rename_i hd
        exact .tooDeep rfl (beq_iff_eq.mp hd)
      · split
        · rename_i hmore
          exact suffix_of_skipSpace hmore (List.suffix_cons _ rest)
        · exact (items_bounded fuel (depth - 1) _ []).map.opened rfl (skipSpace_suffix rest)
    · rename_i rest
      split
      · rename_i hd
        exact .tooDeep rfl (beq_iff_eq.mp hd)
      · split
        · rename_i hmore
          exact suffix_of_skipSpace hmore (List.suffix_cons _ rest)
        · exact (members_bounded fuel (depth - 1) _ []).map.opened rfl (skipSpace_suffix rest)
    · split
      · exact afterWord?_suffix ‹_›
      · split
        · exact afterWord?_suffix ‹_›
        · split
          · exact afterWord?_suffix ‹_›
          · split
            · exact afterWord?_suffix ‹_›
            · exact number?_bounded depth cs

theorem items_bounded (fuel depth : Nat) (cs : List Char) (out : List Value) :
    Bounded depth cs (items fuel depth cs out) := by
  match fuel with
  | 0 =>
    unfold items
    trivial
  | fuel + 1 =>
    unfold items
    have hvalue := value_bounded fuel depth cs
    split
    · rename_i h
      rw [h] at hvalue
      exact hvalue.ofError
    · rename_i v rest h
      rw [h] at hvalue
      split
      · rename_i more hmore
        exact (items_bounded fuel depth _ _).mono
          ((skipSpace_suffix more).trans (suffix_of_skipSpace hmore hvalue))
      · rename_i hmore
        exact suffix_of_skipSpace hmore hvalue
      · trivial

theorem members_bounded (fuel depth : Nat) (cs : List Char) (out : List (Value × Value)) :
    Bounded depth cs (members fuel depth cs out) := by
  match fuel with
  | 0 =>
    unfold members
    trivial
  | fuel + 1 =>
    unfold members
    split
    · rename_i rest
      have hkey := (string?_bounded depth (rest.length + 1) rest []).mono
        (List.suffix_cons '"' rest)
      split
      · rename_i h
        rw [h] at hkey
        exact hkey.ofError
      · rename_i key rest' h
        rw [h] at hkey
        split
        · rename_i more hmore
          have hvalue := (value_bounded fuel depth (skipSpace more)).mono
            ((skipSpace_suffix more).trans (suffix_of_skipSpace hmore hkey))
          split
          · rename_i h
            rw [h] at hvalue
            exact hvalue.ofError
          · rename_i v rest' h
            rw [h] at hvalue
            split
            · rename_i more hmore
              exact (members_bounded fuel depth _ _).mono
                ((skipSpace_suffix more).trans (suffix_of_skipSpace hmore hvalue))
            · rename_i hmore
              exact suffix_of_skipSpace hmore hvalue
            · trivial
        · trivial
    · trivial

end

/-- A text that is refused for its depth opens more lists and objects than may be nested. -/
theorem lt_openings_of_tooDeep {depth : Nat} {s : String}
    (h : readWithin depth s = .error .tooDeep) : depth < openings s.toList := by
  have hvalue := (value_bounded ((skipSpace s.toList).length + 1) depth
    (skipSpace s.toList)).mono (skipSpace_suffix s.toList)
  unfold readWithin at h
  dsimp only at h
  split at h
  · rename_i hv
    cases h
    rw [hv] at hvalue
    exact hvalue
  · split at h <;> cases h

theorem read_ne_tooDeep (s : String) : read s ≠ .error .tooDeep := by
  intro h
  have hlt := lt_openings_of_tooDeep h
  have hle : openings s.toList ≤ s.toList.length := List.countP_le_length
  rw [String.length_toList] at hle
  exact absurd hlt (Nat.not_lt.mpr hle)

end SourceAtlas.Json
