import Mathlib.Data.List.Basic
import SourceAtlas.Path.Basic

/-!
# Paths and the keys of documents

Absolute paths are kept by names, and their texts are read back as they were. A document's key is
one of three texts: a dot for the root of the project, a way of names below it, or an absolute path;
from each of them the path can be read.

Results:
* `ofText_toString`: the text of an absolute path names it from every place.
* `documentKey_injective`: different paths have different keys.
-/

namespace SourceAtlas.Path

/-! ## Names -/

/-- What a directory can call an entry. -/
structure IsName (c : String) : Prop where
  nonempty : c ≠ ""
  noSlash : '/' ∉ c.toList
  notHere : c ≠ "."
  notUp : c ≠ ".."

/-- An absolute path leads over names. -/
def Absolute.Valid (p : Absolute) : Prop := ∀ c ∈ p.parts, IsName c

/-! ## Components -/

theorem split_eq_splitOn (cs : List Char) : split cs = cs.splitOn '/' := by
  induction cs with
  | nil => rfl
  | cons c cs ih =>
    have hne := List.splitOn_ne_nil '/' cs
    rw [split, ih, List.splitOn_cons_eq_if_modifyHead]
    cases hs : cs.splitOn '/' with
    | nil => exact absurd hs hne
    | cons part parts => rfl

theorem slash_not_mem_of_mem_split {cs part : List Char} (h : part ∈ split cs) : '/' ∉ part := by
  induction cs generalizing part with
  | nil =>
    rw [List.mem_singleton.mp h]
    simp
  | cons c cs ih =>
    rw [split] at h
    cases hs : split cs with
    | nil =>
      rw [split_eq_splitOn] at hs
      exact absurd hs (List.splitOn_ne_nil '/' cs)
    | cons first rest =>
      rw [hs] at h ih
      by_cases hc : c = '/'
      · simp only [hc, beq_self_eq_true, if_true] at h
        rcases List.mem_cons.mp h with rfl | h
        · simp
        · exact ih h
      · simp only [beq_iff_eq, hc, if_false] at h
        rcases List.mem_cons.mp h with rfl | h
        · intro hmem
          rcases List.mem_cons.mp hmem with heq | hmem
          · exact hc heq.symm
          · exact ih List.mem_cons_self hmem
        · exact ih (List.mem_cons_of_mem _ h)

/-- A leading slash begins no component. -/
theorem components_slash (s : String) : components ("/" ++ s) = components s := by
  unfold components
  have h : ("/" ++ s).toList = '/' :: s.toList := by simp
  rw [h, split_eq_splitOn, split_eq_splitOn, List.splitOn_cons_eq_if_modifyHead]
  simp

variable {ws : List String}

/-- Texts without slashes are told apart by slashes between them. -/
theorem split_intercalate (h : ∀ c ∈ ws, '/' ∉ c.toList) (hne : ws ≠ []) :
    split ("/".intercalate ws).toList = ws.map String.toList := by
  rw [split_eq_splitOn, String.toList_intercalate]
  apply List.splitOn_intercalate
  · intro cs hcs
    obtain ⟨c, hc, rfl⟩ := List.mem_map.mp hcs
    exact h c hc
  · simpa using hne

/-- Names between slashes are read back. -/
theorem components_intercalate (h : ∀ c ∈ ws, IsName c) : components ("/".intercalate ws) = ws := by
  cases ws with
  | nil => rfl
  | cons w rest =>
    unfold components
    rw [split_intercalate (fun c hc => (h c hc).noSlash) (List.cons_ne_nil w rest), List.map_map]
    have hid : String.ofList ∘ String.toList = id := by
      funext c
      simp
    rw [hid, List.map_id, List.filter_eq_self]
    intro c hc
    simp [(h c hc).nonempty, (h c hc).notHere]

/-- Names between slashes do not begin with a slash. -/
theorem head?_intercalate (h : ∀ c ∈ ws, IsName c) :
    ("/".intercalate ws).toList.head? ≠ some '/' := by
  rw [String.toList_intercalate]
  cases ws with
  | nil => simp
  | cons w rest =>
    have hw := h w List.mem_cons_self
    obtain ⟨c, cs, hc⟩ := List.exists_cons_of_ne_nil (l := w.toList) (by simpa using hw.nonempty)
    have hslash : c ≠ '/' := by
      intro heq
      exact hw.noSlash (by simp [hc, heq])
    cases rest <;> simp [hc, hslash]

/-- Following names goes down one by one. -/
theorem follow_names (h : ∀ c ∈ ws, IsName c) (place : List String) :
    follow place ws = ws.reverse ++ place := by
  induction ws generalizing place with
  | nil => rfl
  | cons w ws ih =>
    rw [List.forall_mem_cons] at h
    have hstep : follow place (w :: ws) = follow (w :: place) ws := by
      rw [follow]
      exact h.1.notUp
    rw [hstep, ih h.2, List.reverse_cons, List.append_assoc]
    rfl

namespace Absolute

variable {p q root : Absolute}

theorem components_toString (hp : p.Valid) : components p.toString = p.parts := by
  unfold toString
  cases p.doubled
  · simp only [Bool.false_eq_true, if_false]
    rw [components_slash, components_intercalate hp]
  · have h : ("//" : String) = "/" ++ "/" := rfl
    simp only [if_true]
    rw [h, String.append_assoc, components_slash, components_slash, components_intercalate hp]

theorem isAbsolute_toString (p : Absolute) : isAbsolute p.toString := by
  unfold isAbsolute toString
  cases p.doubled <;> simp

/-- The slashes at the beginning of a path's text tell whether it is doubled. -/
theorem length_takeWhile_toString (hp : p.Valid) :
    ((p.toString.toList.takeWhile (· == '/')).length == 2) = p.doubled := by
  have hslashes : ("/".intercalate p.parts).toList.takeWhile (· == '/') = [] := by
    have hhead := head?_intercalate hp
    cases hl : ("/".intercalate p.parts).toList with
    | nil => rfl
    | cons c cs =>
      rw [hl] at hhead
      exact List.takeWhile_cons_of_neg (by simpa using hhead)
  have hone : "/".toList = ['/'] := rfl
  have htwo : "//".toList = ['/', '/'] := rfl
  unfold toString
  cases p.doubled
  · rw [if_neg Bool.false_ne_true, String.toList_append, hone, List.cons_append, List.nil_append,
      List.takeWhile_cons_of_pos rfl, hslashes]
    rfl
  · rw [if_pos rfl, String.toList_append, htwo, List.cons_append, List.cons_append,
      List.nil_append, List.takeWhile_cons_of_pos rfl, List.takeWhile_cons_of_pos rfl, hslashes]
    rfl

/-- The text of an absolute path names it from every place. -/
theorem ofText_toString (here : Absolute) (hp : p.Valid) : ofText here p.toString = p := by
  unfold ofText
  rw [if_pos (isAbsolute_toString p), components_toString hp, follow_names hp,
    length_takeWhile_toString hp, List.append_nil, List.reverse_reverse]

/-- Different paths have different texts. -/
theorem toString_injective (hp : p.Valid) (hq : q.Valid) (h : p.toString = q.toString) : p = q := by
  rw [← ofText_toString p hp, ← ofText_toString p hq, h]

/-! ## Paths that texts name -/

theorem isName_of_mem_components {path c : String} (h : c ∈ components path) (hup : c ≠ "..") :
    IsName c := by
  unfold components at h
  obtain ⟨hmem, hc⟩ := List.mem_filter.mp h
  obtain ⟨cs, hcs, rfl⟩ := List.mem_map.mp hmem
  simp only [Bool.and_eq_true, bne_iff_ne, ne_eq] at hc
  refine ⟨hc.1, ?_, hc.2, hup⟩
  rw [String.toList_ofList]
  exact slash_not_mem_of_mem_split hcs

/-- Following components from names leads over names. -/
theorem isName_of_mem_follow {place cs : List String} (hplace : ∀ c ∈ place, IsName c)
    (hcs : ∀ c ∈ cs, c ≠ ".." → IsName c) : ∀ c ∈ follow place cs, IsName c := by
  induction cs generalizing place with
  | nil => exact hplace
  | cons w ws ih =>
    rw [List.forall_mem_cons] at hcs
    by_cases hw : w = ".."
    · subst hw
      rw [follow]
      exact ih (fun c hc => hplace c (List.mem_of_mem_drop hc)) hcs.2
    · rw [follow]
      · exact ih (List.forall_mem_cons.mpr ⟨hcs.1 hw, hplace⟩) hcs.2
      · exact hw

/-- A text names a path over names. -/
theorem valid_ofText {here : Absolute} (h : here.Valid) (path : String) :
    (ofText here path).Valid := by
  have hcs : ∀ c ∈ components path, c ≠ ".." → IsName c :=
    fun c hc hup => isName_of_mem_components hc hup
  unfold ofText
  split
  · intro c hc
    exact isName_of_mem_follow (by simp) hcs c (List.mem_reverse.mp hc)
  · intro c hc
    refine isName_of_mem_follow ?_ hcs c (List.mem_reverse.mp hc)
    exact fun c hc => h c (List.mem_reverse.mp hc)

/-! ## Keys -/

/-- What two lists share stands before what is left of them. -/
theorem dropShared_spec (as bs : List String) :
    ∃ shared, as = shared ++ (dropShared as bs).1 ∧ bs = shared ++ (dropShared as bs).2 := by
  induction as generalizing bs with
  | nil => exact ⟨[], rfl, rfl⟩
  | cons a as ih =>
    cases bs with
    | nil => exact ⟨[], rfl, rfl⟩
    | cons b bs =>
      by_cases hab : a = b
      · subst hab
        obtain ⟨shared, ha, hb⟩ := ih bs
        refine ⟨a :: shared, ?_, ?_⟩ <;> simp [dropShared, ← ha, ← hb]
      · exact ⟨[], by simp [dropShared, hab], by simp [dropShared, hab]⟩

/-- Nothing is left of a list iff the other begins with it. -/
theorem dropShared_eq_nil_iff {as bs : List String} : (dropShared as bs).1 = [] ↔ as <+: bs := by
  induction as generalizing bs with
  | nil => simp [dropShared]
  | cons a as ih =>
    cases bs with
    | nil => simp [dropShared]
    | cons b bs =>
      by_cases hab : a = b
      · simp [dropShared, hab, ih]
      · simp [dropShared, hab]

end Absolute

/-- A way of components goes up as a text iff its first component does. -/
theorem goesUp_intercalate {w : String} (h : ∀ c ∈ w :: ws, '/' ∉ c.toList) :
    goesUp ("/".intercalate (w :: ws)) ↔ w = ".." := by
  have hsplit := split_intercalate h (List.cons_ne_nil w ws)
  have hsolo : split "..".toList = ["..".toList] := by rfl
  have hmore (cs : List Char) : (split ("../".toList ++ cs)).head? = some "..".toList := by
    rw [split_eq_splitOn]
    simp [List.splitOn_cons_eq_if_modifyHead]
  have hhead : (split ("/".intercalate (w :: ws)).toList).head? = some "..".toList → w = ".." := by
    intro hw
    rw [hsplit, List.map_cons, List.head?_cons, Option.some.injEq, String.toList_inj] at hw
    exact hw
  unfold goesUp
  rw [Bool.or_eq_true, beq_iff_eq, List.isPrefixOf_iff_prefix]
  constructor
  · rintro (hup | ⟨cs, hup⟩)
    · exact hhead (by rw [hup, hsolo]; rfl)
    · exact hhead (by rw [← hup, hmore])
  · rintro rfl
    cases ws with
    | nil => exact Or.inl rfl
    | cons x xs => exact Or.inr ⟨("/".intercalate (x :: xs)).toList, by simp⟩

variable {p q root : Absolute}

/-- The three kinds of keys: the root itself, a way below it, and an absolute path. -/
theorem documentKey_cases (root : Absolute) (hp : p.Valid) :
    (p.parts = root.parts ∧ documentKey root p = ".") ∨
    (∃ way, way ≠ [] ∧ (∀ c ∈ way, IsName c) ∧ p.parts = root.parts ++ way ∧
      documentKey root p = "/".intercalate way) ∨
    (¬ root.parts <+: p.parts ∧ documentKey root p = p.toString) := by
  obtain ⟨shared, hroot, hparts⟩ := Absolute.dropShared_spec root.parts p.parts
  have hprefix : (Absolute.dropShared root.parts p.parts).1 = [] ↔ root.parts <+: p.parts :=
    Absolute.dropShared_eq_nil_iff
  unfold documentKey Absolute.relativeText Absolute.wayFrom
  cases hd : Absolute.dropShared root.parts p.parts with
  | mk up down =>
    rw [hd] at hroot hparts hprefix
    simp only at hroot hparts hprefix ⊢
    have hdown : ∀ c ∈ down, IsName c :=
      fun c hc => hp c (hparts ▸ List.mem_append_right _ hc)
    cases up with
    | cons u up =>
      have hup : goesUp ("/".intercalate (".." :: (up.map (fun _ => "..") ++ down))) := by
        refine (goesUp_intercalate fun c hc => ?_).mpr rfl
        rcases List.mem_append.mp (show c ∈ (u :: up).map (fun _ => "..") ++ down from hc)
          with hc | hc
        · obtain ⟨-, -, rfl⟩ := List.mem_map.mp hc
          decide
        · exact (hdown c hc).noSlash
      exact Or.inr (Or.inr ⟨fun h => by simpa using hprefix.mpr h, if_pos hup⟩)
    | nil =>
      rw [List.append_nil] at hroot
      subst hroot
      cases down with
      | nil => exact Or.inl ⟨by simpa using hparts, rfl⟩
      | cons w ws =>
        have hup : ¬ goesUp ("/".intercalate (w :: ws)) := by
          rw [goesUp_intercalate fun c hc => (hdown c hc).noSlash]
          exact (hdown w List.mem_cons_self).notUp
        exact Or.inr (Or.inl ⟨w :: ws, List.cons_ne_nil w ws, hdown, hparts, if_neg hup⟩)

/-- The names of a path can be read from its key. -/
theorem parts_eq_of_documentKey (root : Absolute) (hp : p.Valid) :
    p.parts = (if isAbsolute (documentKey root p) then [] else root.parts) ++
      components (documentKey root p) := by
  rcases documentKey_cases root hp with
    ⟨hparts, hkey⟩ | ⟨way, -, hway, hparts, hkey⟩ | ⟨-, hkey⟩
  · rw [hkey, hparts]
    have hrel : isAbsolute "." = false := rfl
    have hnone : components "." = [] := rfl
    simp [hrel, hnone]
  · have hrel : isAbsolute ("/".intercalate way) = false := by
      simpa [isAbsolute] using head?_intercalate hway
    rw [hkey, hparts, components_intercalate hway]
    simp [hrel]
  · rw [hkey, if_pos (Absolute.isAbsolute_toString p), Absolute.components_toString hp]
    rfl

/-- Keys tell paths apart: different ones have different keys. -/
theorem documentKey_injective (root : Absolute) (hp : p.Valid) (hq : q.Valid)
    (hd : p.doubled = q.doubled) (h : documentKey root p = documentKey root q) : p = q := by
  have hparts : p.parts = q.parts := by
    rw [parts_eq_of_documentKey root hp, parts_eq_of_documentKey root hq, h]
  cases p
  cases q
  cases hd
  cases hparts
  rfl

end SourceAtlas.Path
