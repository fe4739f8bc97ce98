import Mathlib.Data.Option.Basic
import SourceAtlas.Files.Disk

/-!
# Files that are overwritten

A file that is put in the place of another one changes no way to any place: directories stay
directories, as open as they were, and links keep their targets. So every path leads where it led
before, and the one that the file was put at leads to the new bytes.

Results:
* `at?_put`: what is found in a tree where one entry was put in the place of another.
* `follow_congr`: where a path leads depends on directories and links alone.
* `read_put_file`: what is read of a file after it is overwritten.
-/

namespace SourceAtlas

namespace Entry

/-- Entries of one kind; links lead to the same target, and of two directories both can be searched
    or none. -/
inductive Alike : Entry → Entry → Prop where
  | file (content content' : List UInt8) : Alike (file content) (file content')
  | locked : Alike locked locked
  | directory (readable readable' searchable : Bool) (es es' : List (String × Entry)) :
      Alike (directory readable searchable es) (directory readable' searchable es')
  | link (target : String) : Alike (link target) (link target)

theorem Alike.refl (e : Entry) : Alike e e := by
  cases e <;> constructor

/-- Trees in which each way of names leads to entries of one kind. -/
def SameWays (e e' : Entry) : Prop := ∀ names, Option.Rel Alike (e.at? names) (e'.at? names)

theorem sameWays_refl (e : Entry) : e.SameWays e := by
  intro names
  cases e.at? names with
  | none => exact .none
  | some child => exact .some (.refl child)

theorem at?_append (e : Entry) (names more : List String) :
    e.at? (names ++ more) = (e.at? names).bind (·.at? more) := by
  induction names generalizing e with
  | nil => rfl
  | cons name names ih =>
    rw [List.cons_append, at?, at?]
    cases e.entries.lookup name with
    | none => rfl
    | some child => exact ih child

theorem lookup_cons_eq (m : String) (e : Entry) (es : List (String × Entry)) (n : String) :
    ((m, e) :: es).lookup n = if n = m then some e else es.lookup n := by
  by_cases hn : n = m
  · simp [hn]
  · simp [List.lookup_cons, hn, beq_false_of_ne hn]

theorem lookup_putEntry (name : String) (e : Entry) (es : List (String × Entry)) (n : String) :
    (putEntry name e es).lookup n = if n = name then some e else es.lookup n := by
  induction es with
  | nil => rw [putEntry, lookup_cons_eq]
  | cons entry es ih =>
    obtain ⟨m, old⟩ := entry
    rw [putEntry, lookup_cons_eq m old]
    by_cases hm : m = name
    · rw [if_pos (by simpa using hm), lookup_cons_eq, hm]
      by_cases hn : n = name <;> simp only [hn, if_true, if_false]
    · rw [if_neg (by simpa using hm), lookup_cons_eq, ih]
      by_cases hn : n = m
      · rw [if_pos hn, if_pos hn, if_neg (hn ▸ hm)]
      · rw [if_neg hn, if_neg hn]

/-- What was put at the end of a way is found there. -/
theorem at?_put (e : Entry) (names : List String) (new : Entry) :
    (e.put names new).at? names = some new := by
  induction names generalizing e with
  | nil => rfl
  | cons name names ih => simp [put, at?, lookup_putEntry, ih]

/-- A file in the place of a file changes no way. -/
theorem sameWays_put {e : Entry} {names : List String} {content : List UInt8}
    (h : e.at? names = some (.file content)) (content' : List UInt8) :
    e.SameWays (e.put names (.file content')) := by
  induction names generalizing e with
  | nil =>
    cases h
    intro ms
    cases ms with
    | nil => exact .some (.file _ _)
    | cons m ms => exact .none
  | cons name names ih =>
    obtain ⟨child, hchild, hend⟩ := Option.bind_eq_some_iff.mp h
    cases e with
    | file | locked | link => cases hchild
    | directory readable searchable es =>
      intro ms
      cases ms with
      | nil => exact .some (.directory _ _ _ _ _)
      | cons m ms =>
        simp only [put, withEntries, at?, entries, lookup_putEntry] at hchild ⊢
        by_cases hm : m = name
        · subst hm
          simpa [hchild] using ih hend ms
        · rw [if_neg hm]
          exact sameWays_refl (directory readable searchable es) (m :: ms)

end Entry

namespace Disk

/-- Where names lead depends on directories and links alone. -/
theorem follow_congr {root root' : Entry} (h : root.SameWays root') (keepLast : Bool) (links : Nat)
    (place names : List String) :
    follow root keepLast links place names = follow root' keepLast links place names := by
  -- The recursion: fewer links, or as many links and fewer names.
  induction links using Nat.strongRecOn generalizing place names with
  | _ links ihlinks =>
    induction names generalizing place with
    | nil => rw [follow, follow]
    | cons name rest ihnames =>
      have hhere := h place.reverse
      have hnext := h (place.reverse ++ [name])
      rw [Entry.at?_append, Entry.at?_append] at hnext
      rw [follow.eq_def root, follow.eq_def root']
      dsimp only
      generalize root.at? place.reverse = here, root'.at? place.reverse = here' at hhere hnext ⊢
      cases hhere with
      | none => rfl
      | some halike =>
        cases halike with
        | file | locked | link => rfl
        | directory readable readable' searchable es es' =>
          have hlookup : Option.Rel Entry.Alike (es.lookup name) (es'.lookup name) := by
            simpa [Entry.at?, Entry.entries] using hnext
          dsimp only
          rw [ihnames place, ihnames (place.drop 1), ihnames (name :: place)]
          generalize es.lookup name = child, es'.lookup name = child' at hlookup ⊢
          cases hlookup with
          | none => rfl
          | some hchild =>
            cases hchild with
            | file | locked | directory => rfl
            | link target =>
              cases links with
              | zero => rfl
              | succ links =>
                dsimp only
                rw [ihlinks links (Nat.lt_succ_self links)]

/-- Where a path leads depends on directories and links alone. -/
theorem place_congr {d : Disk} {root : Entry} (h : d.root.SameWays root) (path : String)
    (keepLast : Bool) : { d with root }.place path keepLast = d.place path keepLast := by
  unfold place
  dsimp only
  rw [follow_congr h]

theorem here_put (d : Disk) (path : String) (e : Entry) : (d.put path e).here = d.here := by
  unfold put
  split <;> rfl

theorem read_eq_ok_iff {d : Disk} {path : String} {bytes : List UInt8} : d.read path = .ok bytes ↔
    ∃ place, d.place path false = .ok place ∧ d.root.at? place = some (.file bytes) := by
  unfold read entry
  cases d.place path false with
  | error f => simp [bind, Except.bind]
  | ok place =>
    simp only [bind, Except.bind, Except.ok.injEq, exists_eq_left']
    cases d.root.at? place with
    | none => simp
    | some e => cases e <;> simp

/-- A file that is overwritten is read with its new bytes. -/
theorem read_put_file {d : Disk} {path : String} {bytes : List UInt8} (h : d.read path = .ok bytes)
    (bytes' : List UInt8) : (d.put path (.file bytes')).read path = .ok bytes' := by
  obtain ⟨place, hplace, hat⟩ := read_eq_ok_iff.mp h
  have hput : d.put path (.file bytes') =
      { d with root := d.root.put place (.file bytes') } := by
    unfold put
    simp only [Entry.isFile, Bool.not_true, hplace]
  rw [hput, read_eq_ok_iff]
  refine ⟨place, ?_, Entry.at?_put _ _ _⟩
  rw [place_congr (Entry.sameWays_put hat bytes'), hplace]

/-! ## A single file -/

/-- A disk with one file, `/a`. -/
def alone (bytes : List UInt8) : Disk := ⟨.directory true true [("a", .file bytes)], ⟨false, []⟩⟩

theorem place_alone (bytes : List UInt8) : (alone bytes).place "/a" false = .ok ["a"] := by
  have hway : (Path.split "/a".toList).map String.ofList = ["", "a"] := by rfl
  have hzero : "/a".toList.contains '\x00' = false := by rfl
  have habsolute : Path.isAbsolute "/a" = true := by rfl
  have hshort : ¬ 4096 ≤ "/a".utf8ByteSize ∧ ¬ 255 < "a".utf8ByteSize := by decide
  unfold place
  simp only [hzero, hway, habsolute]
  simp [follow, alone, Entry.at?, hshort, maxNameBytes, maxPathBytes, Except.map]

theorem read_alone (bytes : List UInt8) : (alone bytes).read "/a" = .ok bytes :=
  read_eq_ok_iff.mpr ⟨["a"], place_alone bytes, rfl⟩

theorem isFile_alone (bytes : List UInt8) : (alone bytes).isFile "/a" = true := by
  unfold isFile entry
  rw [place_alone]
  rfl

end Disk

end SourceAtlas
