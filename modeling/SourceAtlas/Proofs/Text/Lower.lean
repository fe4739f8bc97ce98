import Mathlib.Data.List.Basic
import SourceAtlas.Text.Lower

/-!
# Lower case stays lower case

No character that the table maps to is mapped on, and the two characters with a rule of their own
are not among them either. So a text in lower case has no character left that lower case would
change, whatever stands around it.

Results:
* `isLower_lowerChar`: what a character is mapped to is not mapped on.
* `lower_lower`: a text in lower case is its own lower case.
* `startsWith_dot_lower`: a text in lower case begins with a dot iff the text does.
-/

namespace SourceAtlas.Text

/-! ## Runs of the table -/

namespace CaseRun

/-- Whether the run maps a character. -/
def maps (r : CaseRun) (n : Nat) : Bool :=
  r.first ≤ n && n ≤ r.last && (n - r.first) % r.step == 0

/-- The character that the run maps a character to. -/
def target (r : CaseRun) (n : Nat) : Nat := (n + r.shift).toNat

/-- The run maps only to characters, and neither to the dot nor to the dotted capital I. -/
def sound (r : CaseRun) : Bool :=
  (Nat.blt (r.target r.last) 0xD800 ||
    Nat.blt 0xDFFF (r.target r.first) && Nat.blt (r.target r.last) 0x110000) &&
  Nat.blt 0x2E (r.target r.first) &&
  (Nat.blt (r.target r.last) 0x130 || Nat.blt 0x130 (r.target r.first))

/-- None of the characters that `r` maps to is mapped by `q`: they lie outside of the run `q`, or
    between the characters that it maps. -/
def misses (r q : CaseRun) : Bool :=
  Nat.blt q.last (r.target r.first) || Nat.blt (r.target r.last) q.first ||
    (q.step == 2 && (r.step == 2 || r.first == r.last) &&
      (r.target r.first + q.first) % 2 == 1)

variable {r q : CaseRun} {n : Nat}

theorem maps_iff : r.maps n ↔ (r.first ≤ n ∧ n ≤ r.last) ∧ (n - r.first) % r.step = 0 := by
  unfold maps
  rw [Bool.and_eq_true, Bool.and_eq_true, decide_eq_true_eq, decide_eq_true_eq, beq_iff_eq]

theorem target_bounds (h : r.maps n) :
    r.target r.first ≤ r.target n ∧ r.target n ≤ r.target r.last := by
  obtain ⟨hrange, -⟩ := maps_iff.mp h
  unfold target
  omega

/-- What a sound run maps to is a character, neither the dot nor the dotted capital I. -/
theorem target_of_sound (hsound : r.sound) (h : r.maps n) :
    (r.target n).isValidChar ∧ r.target n ≠ 0x2E ∧ r.target n ≠ 0x130 := by
  obtain ⟨hlow, hhigh⟩ := target_bounds h
  unfold sound at hsound
  simp only [Bool.and_eq_true, Bool.or_eq_true, Nat.blt_eq] at hsound
  unfold Nat.isValidChar
  omega

theorem maps_target_of_misses (hsound : r.sound) (hmisses : r.misses q) (h : r.maps n) :
    q.maps (r.target n) = false := by
  obtain ⟨hlow, hhigh⟩ := target_bounds h
  obtain ⟨hrange, hstep⟩ := maps_iff.mp h
  unfold sound at hsound
  unfold misses at hmisses
  simp only [Bool.and_eq_true, Bool.or_eq_true, Nat.blt_eq, beq_iff_eq] at hsound hmisses
  rw [← Bool.not_eq_true, maps_iff]
  rintro ⟨hin, heven⟩
  rcases hmisses with (hbeyond | hbefore) | ⟨⟨htwo, hevery⟩, hodd⟩
  · omega
  · omega
  · -- Both runs take every second character, and they begin at characters of unlike parity.
    have hparity : (n - r.first) % 2 = 0 := by
      rcases hevery with hevery | hsingle
      · rwa [hevery] at hstep
      · omega
    rw [htwo] at heven
    unfold target at *
    omega

end CaseRun

theorem all_sound : caseRuns.all CaseRun.sound = true := by decide +kernel

theorem all_misses : (caseRuns.all fun r => caseRuns.all r.misses) = true := by decide +kernel

/-! ## Characters -/

/-- A character that lower case leaves as it is. -/
structure IsLower (c : Char) : Prop where
  unmapped : lowerChar c = c
  notDotted : c ≠ 'İ'
  notSigma : c ≠ 'Σ'

/-- A character that no run maps is its own lower case, and another has its target. -/
theorem lowerChar_cases (c : Char) :
    (∀ r ∈ caseRuns, r.maps c.toNat = false) ∧ lowerChar c = c ∨
      ∃ r ∈ caseRuns, r.maps c.toNat ∧ lowerChar c = Char.ofNat (r.target c.toNat) := by
  unfold lowerChar
  dsimp only
  split
  · rename_i r h
    have hmaps := List.find?_some (p := fun r : CaseRun => r.maps c.toNat) h
    exact Or.inr ⟨r, List.mem_of_find?_eq_some h, hmaps, rfl⟩
  · rename_i h
    rw [List.find?_eq_none] at h
    exact Or.inl ⟨fun r hr => Bool.not_eq_true _ ▸ h r hr, rfl⟩

theorem lowerChar_eq_self {c : Char} (h : ∀ r ∈ caseRuns, r.maps c.toNat = false) :
    lowerChar c = c := by
  rcases lowerChar_cases c with ⟨-, hself⟩ | ⟨r, hr, hmaps, -⟩
  · exact hself
  · rw [h r hr] at hmaps
    cases hmaps

/-- Some run maps the capital sigma. -/
theorem exists_maps_sigma : ∃ r ∈ caseRuns, r.maps 'Σ'.toNat := by
  refine List.any_eq_true.mp ?_
  decide +kernel

/-- What a run of the table maps to is a character that no run maps. -/
theorem isLower_target {r : CaseRun} {n : Nat} (hr : r ∈ caseRuns) (h : r.maps n) :
    IsLower (Char.ofNat (r.target n)) ∧ Char.ofNat (r.target n) ≠ '.' := by
  have hsound := List.all_eq_true.mp all_sound r hr
  obtain ⟨hvalid, hdot, hdotted⟩ := CaseRun.target_of_sound hsound h
  have hnat : (Char.ofNat (r.target n)).toNat = r.target n := by
    rw [Char.ofNat, dif_pos hvalid]
    rfl
  have hfree : ∀ q ∈ caseRuns, q.maps (Char.ofNat (r.target n)).toNat = false := by
    intro q hq
    rw [hnat]
    exact CaseRun.maps_target_of_misses hsound
      (List.all_eq_true.mp (List.all_eq_true.mp all_misses r hr) q hq) h
  refine ⟨⟨lowerChar_eq_self hfree, ?_, ?_⟩, ?_⟩
  · intro heq
    rw [heq] at hnat
    exact hdotted hnat.symm
  · intro heq
    obtain ⟨q, hq, hmaps⟩ := exists_maps_sigma
    rw [heq] at hfree
    rw [hfree q hq] at hmaps
    cases hmaps
  · intro heq
    rw [heq] at hnat
    exact hdot hnat.symm

theorem isLower_lowerChar {c : Char} (hdotted : c ≠ 'İ') (hsigma : c ≠ 'Σ') :
    IsLower (lowerChar c) := by
  rcases lowerChar_cases c with ⟨-, hself⟩ | ⟨r, hr, hmaps, htarget⟩
  · rw [hself]
    exact ⟨hself, hdotted, hsigma⟩
  · rw [htarget]
    exact (isLower_target hr hmaps).1

/-- Only the dot has the dot as its lower case. -/
theorem lowerChar_eq_dot_iff {c : Char} : lowerChar c = '.' ↔ c = '.' := by
  constructor
  · intro h
    rcases lowerChar_cases c with ⟨-, hself⟩ | ⟨r, hr, hmaps, htarget⟩
    · rw [← hself, h]
    · exact absurd (htarget ▸ h) (isLower_target hr hmaps).2
  · rintro rfl
    decide +kernel

/-! ## Texts -/

/-- The lower case of a character between others. -/
def lowerPart (before rest : List Char) (c : Char) : List Char :=
  if c == 'İ' then ['i', '\u0307']
  else if c == 'Σ' then [if meetsCased before && !meetsCased rest then 'ς' else 'σ']
  else [lowerChar c]

theorem lowerFrom_cons (before rest : List Char) (c : Char) :
    lowerFrom before (c :: rest) = lowerPart before rest c ++ lowerFrom (c :: before) rest := rfl

theorem isLower_special : ∀ c ∈ ['i', '\u0307', 'ς', 'σ'], IsLower c := by
  have hof {c : Char} (h : lowerChar c = c ∧ c ≠ 'İ' ∧ c ≠ 'Σ') : IsLower c := ⟨h.1, h.2.1, h.2.2⟩
  rw [List.forall_mem_cons, List.forall_mem_cons, List.forall_mem_cons, List.forall_mem_singleton]
  exact ⟨hof (by decide +kernel), hof (by decide +kernel), hof (by decide +kernel),
    hof (by decide +kernel)⟩

theorem isLower_of_mem_lowerPart {before rest : List Char} {c d : Char}
    (h : d ∈ lowerPart before rest c) : IsLower d := by
  unfold lowerPart at h
  split at h
  · apply isLower_special
    exact List.mem_append_left ['ς', 'σ'] h
  · rename_i hdotted
    split at h
    · apply isLower_special
      rw [List.mem_singleton.mp h]
      split <;> simp
    · rename_i hsigma
      rw [List.mem_singleton.mp h]
      exact isLower_lowerChar (mt beq_iff_eq.mpr hdotted) (mt beq_iff_eq.mpr hsigma)

theorem isLower_of_mem_lowerFrom {before cs : List Char} {d : Char} (h : d ∈ lowerFrom before cs) :
    IsLower d := by
  induction cs generalizing before with
  | nil => cases h
  | cons c rest ih =>
    rw [lowerFrom_cons] at h
    rcases List.mem_append.mp h with h | h
    · exact isLower_of_mem_lowerPart h
    · exact ih h

/-- Lower case leaves lower case as it is, whatever stands before. -/
theorem lowerFrom_eq_self {before cs : List Char} (h : ∀ c ∈ cs, IsLower c) :
    lowerFrom before cs = cs := by
  induction cs generalizing before with
  | nil => rfl
  | cons c rest ih =>
    rw [List.forall_mem_cons] at h
    have hpart : lowerPart before rest c = [c] := by
      unfold lowerPart
      rw [if_neg (mt beq_iff_eq.mp h.1.notDotted), if_neg (mt beq_iff_eq.mp h.1.notSigma),
        h.1.unmapped]
    rw [lowerFrom_cons, hpart, ih h.2]
    rfl

theorem toList_lower (s : String) : (lower s).toList = lowerFrom [] s.toList :=
  String.toList_ofList

/-- A text all of whose characters are in lower case is its own lower case. -/
theorem lower_eq_self {s : String} (h : ∀ c ∈ s.toList, IsLower c) : lower s = s := by
  rw [← String.toList_inj, toList_lower, lowerFrom_eq_self h]

theorem isLower_of_mem_lower {s : String} {c : Char} (h : c ∈ (lower s).toList) : IsLower c := by
  rw [toList_lower] at h
  exact isLower_of_mem_lowerFrom h

/-- **Lower case is reached at once.** -/
theorem lower_lower (s : String) : lower (lower s) = lower s :=
  lower_eq_self fun _ => isLower_of_mem_lower

/-! ## Dots -/

theorem startsWith_dot_iff {s : String} : s.startsWith "." ↔ s.toList.head? = some '.' := by
  rw [String.startsWith_string_iff]
  cases s.toList <;> simp [eq_comm]

theorem head?_lowerPart_eq_dot_iff {before rest : List Char} {c : Char} :
    (lowerPart before rest c).head? = some '.' ↔ c = '.' := by
  unfold lowerPart
  split
  · rename_i h
    rw [beq_iff_eq.mp h]
    decide
  · split
    · rename_i h
      rw [beq_iff_eq.mp h]
      split <;> decide
    · rw [List.head?_cons, Option.some_inj, lowerChar_eq_dot_iff]

/-- A text in lower case begins with a dot iff the text does. -/
theorem startsWith_dot_lower (s : String) : (lower s).startsWith "." = s.startsWith "." := by
  rw [Bool.eq_iff_iff, startsWith_dot_iff, startsWith_dot_iff, toList_lower]
  cases s.toList with
  | nil => rfl
  | cons c rest =>
    have hne : lowerPart [] rest c ≠ [] := by
      unfold lowerPart
      split
      · simp
      · split <;> simp
    rw [lowerFrom_cons, List.head?_append_of_ne_nil _ hne, head?_lowerPart_eq_dot_iff,
      List.head?_cons, Option.some_inj]

end SourceAtlas.Text
