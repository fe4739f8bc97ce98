import Mathlib.Logic.Basic
import SourceAtlas.Proofs.Files.Overwrite
import SourceAtlas.Proofs.Settings.Parser
import SourceAtlas.Proofs.Yaml.Read
import SourceAtlas.Settings.Load

/-!
# What loading settings comes to

Settings are made of the data of the file that holds them. A file that is missing or cannot be read,
that the library which parses it fails on by itself, or that holds no mapping counts as an empty
one. But not every failure to read a file is met in this way: a byte that cannot stand where it
does, and a failure of the library that is not its own, are not taken for an empty file. All this is
so no matter which library it is and how settings are made of data.

Results:
* `Holds`, `Obstructed`: which data a file holds, and which failures it has instead.
* `load_outcome`: either settings are made of the data of the file, or its failure shows.
* `obstacle_of_obstructed`: what obstructs a file that the library at hand reads.
-/

namespace SourceAtlas.Settings

variable {δ ε : Type} {p : Parser δ ε} {make : Environment → Option δ → Except CastError Settings}
  {d : Disk} {f : Option String} {env : Environment} {named : Option String}

/-- The data of the file with the settings. It has none if there is no such file, if it cannot be
    read, if the library fails on it by itself, or if what it holds is no mapping. -/
inductive Holds (p : Parser δ ε) (d : Disk) : Option String → Option δ → Prop
  | missing : Holds p d none none
  | unreadable {path : String} {e : FileError} (hread : d.read path = .error e) :
      Holds p d (some path) none
  | mapping {path : String} {bytes : List UInt8} {data : δ} (hread : d.read path = .ok bytes)
      (h : p.Ends bytes (.ok data)) (hmap : p.isMapping data) : Holds p d (some path) (some data)
  | other {path : String} {bytes : List UInt8} {data : δ} (hread : d.read path = .ok bytes)
      (h : p.Ends bytes (.ok data)) (hmap : ¬ p.isMapping data) : Holds p d (some path) none
  | malformed {path : String} {bytes : List UInt8} {e : ε} (hread : d.read path = .ok bytes)
      (h : p.Ends bytes (.error e)) (hown : p.isOwn e) : Holds p d (some path) none

/-- The failure of a file that holds no data: its bytes are no text, and the library does not come
    to an end before it meets that; or the library fails, but not by itself. -/
inductive Obstructed (p : Parser δ ε) (d : Disk) : Option String → LoadError ε → Prop
  | bytes {path : String} {bytes : List UInt8} (hread : d.read path = .ok bytes)
      (h : ∀ cs, bytes ≠ Text.Utf8.encode cs)
      (hlong : ∀ r, ¬ p.EndsEarly [] (p.cut bytes) r) : Obstructed p d (some path) .notUtf8
  | failed {path : String} {bytes : List UInt8} {e : ε} (hread : d.read path = .ok bytes)
      (h : p.Ends bytes (.error e)) (hother : ¬ p.isOwn e) : Obstructed p d (some path) (.data e)

/-- The data of the file, or none where there is no file. -/
theorem loadBy_eq (p : Parser δ ε) (make : Environment → Option δ → Except CastError Settings)
    (d : Disk) (env : Environment) (named : Option String) :
    loadBy p make d env named = (match file? d env named with
      | some path => dataOf p d path
      | none => .ok none) >>= fun data => (make env data).mapError .cast := by
  unfold loadBy
  cases file? d env named <;> rfl

theorem loadBy_of_holds {data : Option δ} (h : Holds p d (file? d env named) data) :
    loadBy p make d env named = (make env data).mapError .cast := by
  rw [loadBy_eq]
  generalize file? d env named = f at h
  cases h with
  | missing => rfl
  | unreadable hread =>
    dsimp only
    rw [dataOf, hread]
    rfl
  | mapping hread h hmap =>
    dsimp only
    rw [dataOf, hread]
    dsimp only
    rw [p.parse_eq_some_iff.mpr h]
    dsimp only
    rw [if_pos hmap]
    rfl
  | other hread h hmap =>
    dsimp only
    rw [dataOf, hread]
    dsimp only
    rw [p.parse_eq_some_iff.mpr h]
    dsimp only
    rw [if_neg hmap]
    rfl
  | malformed hread h hown =>
    dsimp only
    rw [dataOf, hread]
    dsimp only
    rw [p.parse_eq_some_iff.mpr h]
    dsimp only
    rw [if_pos hown]
    rfl

theorem loadBy_of_obstructed {e : LoadError ε} (h : Obstructed p d (file? d env named) e) :
    loadBy p make d env named = .error e := by
  rw [loadBy_eq]
  generalize file? d env named = f at h
  cases h with
  | bytes hread h hlong =>
    dsimp only
    rw [dataOf, hread]
    dsimp only
    rw [p.parse_eq_none_iff.mpr ⟨h, hlong⟩]
    rfl
  | failed hread h hother =>
    dsimp only
    rw [dataOf, hread]
    dsimp only
    rw [p.parse_eq_some_iff.mpr h]
    dsimp only
    rw [if_neg hother]
    rfl

theorem holds_or_obstructed (p : Parser δ ε) (d : Disk) (f : Option String) :
    (∃ data, Holds p d f data) ∨ ∃ e, Obstructed p d f e := by
  cases f with
  | none => exact Or.inl ⟨_, .missing⟩
  | some path =>
    cases hread : d.read path with
    | error e => exact Or.inl ⟨_, .unreadable hread⟩
    | ok bytes =>
      cases hparse : p.parse bytes with
      | none =>
        obtain ⟨htext, hlong⟩ := p.parse_eq_none_iff.mp hparse
        exact Or.inr ⟨_, .bytes hread htext hlong⟩
      | some r =>
        have hends := p.parse_eq_some_iff.mp hparse
        cases r with
        | ok data =>
          by_cases hmap : p.isMapping data
          · exact Or.inl ⟨_, .mapping hread hends hmap⟩
          · exact Or.inl ⟨_, .other hread hends hmap⟩
        | error e =>
          by_cases hown : p.isOwn e
          · exact Or.inl ⟨_, .malformed hread hends hown⟩
          · exact Or.inr ⟨_, .failed hread hends hown⟩

/-- A failure of the file is never one of making settings. -/
theorem not_made_of_obstructed {e : LoadError ε} (h : Obstructed p d f e) (data : Option δ) :
    (make env data).mapError .cast ≠ .error e := by
  intro heq
  cases hmade : make env data with
  | ok s =>
    rw [hmade] at heq
    cases heq
  | error c =>
    rw [hmade] at heq
    cases heq
    cases h

/-- **Loading.** The file with the settings holds data or counts as empty, and loading settings
    comes to what making them of these data comes to. Or else the file is obstructed, and loading
    fails as the file does. -/
theorem load_outcome (p : Parser δ ε) (make : Environment → Option δ → Except CastError Settings)
    (d : Disk) (env : Environment) (named : Option String) :
    Xor (∃ data, Holds p d (file? d env named) data ∧
        loadBy p make d env named = (make env data).mapError .cast)
      (∃ e, Obstructed p d (file? d env named) e ∧ loadBy p make d env named = .error e) := by
  have hexclusive {data : Option δ} {e : LoadError ε} (he : Obstructed p d (file? d env named) e)
      (hdata : loadBy p make d env named = (make env data).mapError .cast) :
      loadBy p make d env named ≠ .error e :=
    hdata ▸ not_made_of_obstructed he data
  rcases holds_or_obstructed p d (file? d env named) with ⟨data, h⟩ | ⟨e, h⟩
  · refine Or.inl ⟨⟨data, h, loadBy_of_holds h⟩, ?_⟩
    rintro ⟨e, he, hload⟩
    exact hexclusive he (loadBy_of_holds h) hload
  · refine Or.inr ⟨⟨e, h, loadBy_of_obstructed h⟩, ?_⟩
    rintro ⟨data, -, hload⟩
    exact hexclusive h hload (loadBy_of_obstructed h)

/-! ## The library at hand -/

theorem not_endsEarly_yaml (depth : Nat) {seen : List UInt8} {pieces : List (List UInt8)}
    {r : Except Yaml.YamlError Value} : ¬ (Yaml.parser depth).EndsEarly seen pieces r := by
  intro h
  induction h with
  | here _ ends => cases ends
  | later _ _ _ ih => exact ih

/-- A file that the library at hand reads is obstructed only by bytes that are no text, or by an
    obstacle of the text. -/
theorem obstacle_of_obstructed {depth : Nat} {e : Yaml.YamlError}
    (h : Obstructed (Yaml.parser depth) d f (.data e)) :
    ∃ path cs, f = some path ∧ d.read path = .ok (Text.Utf8.encode cs) ∧
      Yaml.Obstacle depth (Text.unifyLines cs) e := by
  cases h with
  | @failed path bytes e hread h hother =>
    rcases h with hearly | ⟨-, cs, rfl, hwhole⟩
    · exact absurd hearly (not_endsEarly_yaml depth)
    · have hvalue : Yaml.read depth (Text.unifyLines cs) = .error e := hwhole
      refine ⟨path, cs, rfl, hread, (Yaml.read_error hvalue).resolve_left ?_⟩
      rintro rfl
      exact hother rfl

/-- A byte that is no text is not taken for an empty file: settings would resolve from no values,
    but loading them fails. -/
theorem load_strayByte :
    file? (.alone [0xFF]) (fun _ => none) (some "/a") = some "/a" ∧
    (Disk.alone [0xFF]).read "/a" = .ok [0xFF] ∧ (∀ cs, [0xFF] ≠ Text.Utf8.encode cs) ∧
    load (.alone [0xFF]) (fun _ => none) (some "/a") ≠
      (resolve (fun _ => none) (.map [])).mapError .cast := by
  have hfile : file? (.alone [0xFF]) (fun _ => none) (some "/a") = some "/a" := by
    simp [file?, candidates, Disk.isFile_alone]
  have hinvalid : ∀ cs, [0xFF] ≠ Text.Utf8.encode cs :=
    not_exists.mp (mt (Text.Utf8.isValid_iff [0xFF]).mpr (by decide))
  have hobstructed : Obstructed (Yaml.parser Yaml.usualDepth) (.alone [0xFF])
      (file? (.alone [0xFF]) (fun _ => none) (some "/a")) .notUtf8 := by
    rw [hfile]
    exact .bytes (Disk.read_alone _) hinvalid fun _ => not_endsEarly_yaml _
  refine ⟨hfile, Disk.read_alone _, hinvalid, ?_⟩
  rw [load, loadBy_of_obstructed hobstructed]
  cases resolve (fun _ => none) (.map []) <;> exact fun h => by cases h

/-- A day that no month has is an obstacle of a text. -/
example : Yaml.Refused "2024-13-45".toList Yaml.Tag.timestamp .badScalar := .timestamp (by cbv)

end SourceAtlas.Settings
