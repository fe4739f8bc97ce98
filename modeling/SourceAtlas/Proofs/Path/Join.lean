import SourceAtlas.Proofs.Path.Key

/-!
# Keys as paths

The key of a document is itself a path: joined to the root of the project it leads back to the file,
and where that root is the current directory the key names the file as it stands.

Results:
* `parts_ofText_join`: to join a text to a path is to follow it from there.
* `parts_ofText_documentKey`: a key followed from the root leads to the path that it is the key of.
* `isAbsolute_documentKey_iff`: keys of paths at the root or below it are relative, and only these.
* `documentKey_documentKey`: a key names the path that it is the key of.
-/

namespace SourceAtlas.Path

/-! ## Joined texts -/

/-- A path with another one behind it, unless that one is absolute. -/
def join (a b : String) : String :=
  if isAbsolute b then b
  else if a == "" || a.toList.getLast? == some '/' then a ++ b
  else a ++ "/" ++ b

/-- Texts on both sides of a slash have their own components. -/
theorem components_append_slash (a b : String) :
    components (a ++ "/" ++ b) = components a ++ components b := by
  have h : (a ++ "/" ++ b).toList = a.toList ++ '/' :: b.toList := by simp
  unfold components
  rw [h, split_eq_splitOn, split_eq_splitOn, split_eq_splitOn, List.splitOn_append_cons_self,
    List.map_append, List.filter_append]

/-- A slash at the end of a path is as good as one put between. -/
theorem components_join {a b : String} (hb : isAbsolute b = false) :
    components (join a b) = components a ++ components b := by
  have hnone : components "" = [] := rfl
  unfold join
  rw [if_neg (by simp [hb])]
  split
  · rename_i h
    rw [Bool.or_eq_true, beq_iff_eq, beq_iff_eq] at h
    rcases h with rfl | h
    · rw [String.empty_append, hnone, List.nil_append]
    · obtain ⟨cs, hcs⟩ := List.getLast?_eq_some_iff.mp h
      have ha : a = String.ofList cs ++ "/" ++ "" := by
        rw [← String.toList_inj, hcs]
        simp
      rw [ha, components_append_slash, hnone, List.append_nil, String.append_empty,
        components_append_slash]
  · exact components_append_slash a b

theorem isAbsolute_join {a : String} (ha : isAbsolute a) (b : String) : isAbsolute (join a b) := by
  unfold isAbsolute at ha
  rw [beq_iff_eq] at ha
  unfold join
  split
  · assumption
  · unfold isAbsolute
    split <;> simp [ha]

theorem follow_append (place as bs : List String) :
    follow place (as ++ bs) = follow (follow place as) bs := by
  induction as generalizing place with
  | nil => rfl
  | cons a as ih =>
    by_cases ha : a = ".."
    · subst ha
      exact ih _
    · rw [List.cons_append, follow, follow, ih]
      · exact ha
      · exact ha

/-- To join a text to a path is to follow it from there. -/
theorem parts_ofText_join {root : Absolute} (hroot : root.Valid) (here : Absolute)
    (path : String) :
    (Absolute.ofText here (join root.toString path)).parts = (Absolute.ofText root path).parts := by
  have habs := isAbsolute_join (Absolute.isAbsolute_toString root) path
  unfold Absolute.ofText
  rw [if_pos habs]
  cases hpath : isAbsolute path with
  | true => rw [join, if_pos hpath, if_pos rfl]
  | false =>
    rw [components_join hpath, Absolute.components_toString hroot, follow_append,
      follow_names hroot, List.append_nil]
    rfl

/-! ## Keys -/

variable {here root p : Absolute}

/-- Keys of paths at the root or below it are relative, and only these. -/
theorem isAbsolute_documentKey_iff (root : Absolute) (hp : p.Valid) :
    isAbsolute (documentKey root p) = false ↔ root.parts <+: p.parts := by
  rcases documentKey_cases root hp with
    ⟨hparts, hkey⟩ | ⟨way, -, hway, hparts, hkey⟩ | ⟨hparts, hkey⟩
  · rw [hkey, hparts]
    exact iff_of_true rfl List.prefix_rfl
  · rw [hkey, hparts]
    exact iff_of_true (by simpa [isAbsolute] using head?_intercalate hway) (List.prefix_append _ _)
  · rw [hkey, Absolute.isAbsolute_toString]
    exact iff_of_false (by simp) hparts

/-- A name that merely begins with two dots does not lead up. -/
example : documentKey ⟨false, ["src"]⟩ ⟨false, ["src", "..foo"]⟩ = "..foo" := by rfl

/-- A key is made of names. -/
theorem isName_of_mem_documentKey (root : Absolute) (hp : p.Valid) :
    ∀ c ∈ components (documentKey root p), IsName c := by
  intro c hc
  refine hp c ?_
  rw [parts_eq_of_documentKey root hp]
  exact List.mem_append_right _ hc

/-- A key followed from the root leads to the path that it is the key of. -/
theorem parts_ofText_documentKey (root : Absolute) (hp : p.Valid) :
    (Absolute.ofText root (documentKey root p)).parts = p.parts := by
  have hnames := isName_of_mem_documentKey root hp
  have hparts := parts_eq_of_documentKey root hp
  unfold Absolute.ofText
  cases hkey : isAbsolute (documentKey root p) with
  | true =>
    rw [hkey, if_pos rfl, List.nil_append] at hparts
    rw [if_pos rfl, follow_names hnames, List.append_nil, List.reverse_reverse, ← hparts]
  | false =>
    rw [hkey, if_neg Bool.false_ne_true] at hparts
    rw [if_neg Bool.false_ne_true, follow_names hnames, List.reverse_append, List.reverse_reverse,
      List.reverse_reverse, ← hparts]

/-- A relative key depends on nothing but the names of a path. -/
theorem documentKey_congr {q : Absolute} (hparts : q.parts = p.parts)
    (hrel : isAbsolute (documentKey root p) = false) : documentKey root q = documentKey root p := by
  have hway : root.relativeText q = root.relativeText p := by
    unfold Absolute.relativeText Absolute.wayFrom
    rw [hparts]
  unfold documentKey at hrel ⊢
  rw [hway]
  dsimp only at hrel ⊢
  split
  · rename_i hup
    rw [if_pos hup, Absolute.isAbsolute_toString] at hrel
    cases hrel
  · rfl

/-- Where the root of the project is the current directory, a key names the path that it is the key
    of. -/
theorem documentKey_documentKey (hroot : root.parts = here.parts) (hp : p.Valid) :
    documentKey root (Absolute.ofText here (documentKey root p)) = documentKey root p := by
  cases hkey : isAbsolute (documentKey root p) with
  | false =>
    have hsame : (Absolute.ofText here (documentKey root p)).parts =
        (Absolute.ofText root (documentKey root p)).parts := by
      unfold Absolute.ofText
      rw [hkey, hroot]
      rfl
    exact documentKey_congr (hsame.trans (parts_ofText_documentKey root hp)) hkey
  | true =>
    rcases documentKey_cases root hp with ⟨-, h⟩ | ⟨way, -, hway, -, h⟩ | ⟨-, h⟩
    · rw [h] at hkey
      cases hkey
    · rw [h, isAbsolute, beq_iff_eq] at hkey
      exact absurd hkey (head?_intercalate hway)
    · rw [h, Absolute.ofText_toString here hp, h]

end SourceAtlas.Path
