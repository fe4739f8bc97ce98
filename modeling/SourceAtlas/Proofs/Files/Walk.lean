import Mathlib.Data.List.Nodup
import Mathlib.Data.List.Perm.Basic
import Mathlib.Logic.Function.Iterate
import SourceAtlas.Files.Walk
import SourceAtlas.Proofs.Path.Key

/-!
# What a walk finds

A walk keeps the directories that it has yet to list, and it comes to them in the order in which a
recursion over the tree does. A directory gives each of its entries a name of its own. So a walk
comes to every place once, and the paths of what it finds are different.

Results:
* `finish_eq`: a walk finds what is found by recursion.
* `exists_rounds`: it ends after no more rounds than there are entries.
* `at_of_mem_findings`: what a walk finds lies at its place or below it.
* `nodup_findings`: it finds nothing twice.
* `nodup_walkedFiles`, `exists_of_mem_walkedFiles`: the same for the files of a walk.
-/

namespace SourceAtlas

/-! ## Proper trees -/

/-- A tree whose directories call their entries by different names, as a file system sees to it. -/
inductive Entry.Proper : Entry → Prop where
  | file (content : List UInt8) : Proper (.file content)
  | locked : Proper .locked
  | link (target : String) : Proper (.link target)
  | directory {readable searchable : Bool} {es : List (String × Entry)}
      (distinct : (es.map Prod.fst).Nodup) (names : ∀ e ∈ es, Path.IsName e.1)
      (entries : ∀ e ∈ es, e.2.Proper) : Proper (.directory readable searchable es)

/-- What a way of names leads to in a proper tree is proper. -/
theorem Entry.Proper.at? {e child : Entry} {names : List String} (h : e.Proper)
    (hc : e.at? names = some child) : child.Proper := by
  induction names generalizing e with
  | nil =>
    cases hc
    exact h
  | cons name names ih =>
    rw [Entry.at?] at hc
    obtain ⟨next, hnext, hc⟩ := Option.bind_eq_some_iff.mp hc
    refine ih ?_ hc
    cases h with
    | file | locked | link => cases hnext
    | directory _ _ entries =>
      obtain ⟨l₁, l₂, hes, -⟩ := List.lookup_eq_some_iff.mp hnext
      exact entries (name, next) (by simp only [Entry.entries] at hes; simp [hes])

theorem Entry.Proper.behind {e : Entry} (h : e.Proper) (searchable : Bool) :
    (e.behind searchable).Proper := by
  cases searchable
  · exact .directory .nil (fun _ he => absurd he List.not_mem_nil)
      fun _ he => absurd he List.not_mem_nil
  · exact h

/-- A disk with a proper tree and a current directory that is a path. -/
structure Disk.Proper (d : Disk) : Prop where
  root : d.root.Proper
  here : d.here.Valid

theorem Disk.Proper.absolute {d : Disk} (h : d.Proper) (path : String) : (d.absolute path).Valid :=
  Path.Absolute.valid_ofText h.here path

theorem Disk.Proper.entry {d : Disk} (h : d.Proper) {path : String} {e : Entry}
    (he : d.entry path = .ok e) : e.Proper := by
  unfold Disk.entry at he
  cases hp : d.place path false with
  | error f => rw [hp] at he; cases he
  | ok place =>
    rw [hp] at he
    simp only [bind, Except.bind] at he
    cases ha : d.root.at? place with
    | none => rw [ha] at he; cases he
    | some child =>
      rw [ha] at he
      cases he
      exact h.root.at? ha

/-- A slash leads to the root. -/
theorem Disk.entry_slash {d : Disk} {readable searchable : Bool} {es : List (String × Entry)}
    (h : d.root = .directory readable searchable es) : d.entry "/" = .ok d.root := by
  have hplace : d.place "/" false = .ok [] := by
    have hsplit : (Path.split "/".toList).map String.ofList = ["", ""] := by rfl
    have hzero : "/".toList.contains '\x00' = false := by rfl
    have hempty : ("/" == "") = false := by rfl
    have hshort : ¬ Disk.maxPathBytes ≤ "/".utf8ByteSize := by decide
    have habsolute : Path.isAbsolute "/" = true := by rfl
    unfold Disk.place
    simp only [hsplit, hzero, hempty, hshort, habsolute, if_true, if_false, Bool.false_eq_true]
    simp [Disk.follow, h, Entry.at?, Except.map]
  unfold Disk.entry
  rw [hplace]
  rfl

theorem Entry.size_le_sizeOfAll {es : List (String × Entry)} {c : String × Entry} (h : c ∈ es) :
    c.2.size ≤ Entry.sizeOfAll es := by
  induction es with
  | nil => cases h
  | cons e es ih =>
    rw [Entry.sizeOfAll]
    rcases List.mem_cons.mp h with rfl | h
    · exact Nat.le_add_right _ _
    · exact Nat.le_add_left_of_le (ih h)

/-! ## Places below a place -/

/-- The path some names further. -/
def Path.Absolute.descend (p : Path.Absolute) (names : List String) : Path.Absolute :=
  { p with parts := p.parts ++ names }

namespace Path.Absolute

variable {p : Absolute} {name : String} {names : List String}

@[simp] theorem descend_nil (p : Absolute) : p.descend [] = p := by simp [descend]

theorem descend_child (p : Absolute) (name : String) (names : List String) :
    (p.child name).descend names = p.descend (name :: names) := by
  simp [descend, child]

theorem Valid.descend (h : p.Valid) (hn : ∀ c ∈ names, IsName c) : (p.descend names).Valid := by
  intro c hc
  rcases List.mem_append.mp hc with hc | hc
  · exact h c hc
  · exact hn c hc

theorem Valid.child (h : p.Valid) (hn : IsName name) : (p.child name).Valid := by
  have hd : (p.descend [name]).Valid := h.descend (by simpa using hn)
  exact hd

end Path.Absolute

/-! ## Findings -/

/-- The path that a finding is about. -/
def Finding.path : Finding → String
  | .file path => path
  | .unlisted e => e.path
  | .unclear e => e.path

/-- What can be found at a place below the one where a walk begins. -/
inductive Finding.At (p : Path.Absolute) : Finding → Prop where
  | file : At p (.file p.toString)
  | unclear (fault : FileFault) : At p (.unclear ⟨fault, p.toString⟩)
  | tooLong : At p (.unlisted ⟨.nameTooLong, p.toString⟩)
  | denied : At p (.unlisted ⟨.denied, p.toString⟩)
  | notDirectory : At p (.unlisted ⟨.notDirectory, p.toString⟩)

theorem Finding.At.path_eq {p : Path.Absolute} {x : Finding} (h : x.At p) :
    x.path = p.toString := by
  cases h <;> rfl

namespace Disk

variable {d : Disk} {rule : WalkRule} {place : Path.Absolute}

/-! ## By recursion -/

theorem size_lt_of_mem_directoriesAt {e : Entry} {a : Path.Absolute × Entry}
    (h : a ∈ directoriesAt rule place e.isSearchable (sortByName e.entries)) :
    a.2.size < e.size := by
  obtain ⟨c, hc, rfl⟩ := List.mem_map.mp h
  have hc : c ∈ e.entries := List.mem_mergeSort.mp (List.mem_of_mem_filter hc)
  refine Nat.lt_of_le_of_lt (Entry.size_behind_le _ c.2) ?_
  cases e with
  | file | locked | link => cases hc
  | directory readable searchable es => exact Nat.lt_succ_of_le (Entry.size_le_sizeOfAll hc)

/-- What is found at a place and below it: what a directory holds itself, by name, and then what is
    found at each of its directories, by name. -/
def findings (d : Disk) (rule : WalkRule) (place : Path.Absolute) (e : Entry) : List Finding :=
  match unlistable? place e with
  | some fault => [.unlisted ⟨fault, place.toString⟩]
  | none =>
    (sortByName e.entries).flatMap (fun c => d.ownFinding rule place c.1 c.2) ++
      (directoriesAt rule place e.isSearchable (sortByName e.entries)).attach.flatMap fun a =>
        findings d rule a.1.1 a.1.2
termination_by e.size
decreasing_by exact size_lt_of_mem_directoriesAt a.2

theorem findings_of_unlistable {e : Entry} {fault : FileFault}
    (h : unlistable? place e = some fault) :
    d.findings rule place e = [.unlisted ⟨fault, place.toString⟩] := by
  rw [findings, h]

theorem findings_of_listable {e : Entry} (h : unlistable? place e = none) :
    d.findings rule place e =
      (sortByName e.entries).flatMap (fun c => d.ownFinding rule place c.1 c.2) ++
        (directoriesAt rule place e.isSearchable (sortByName e.entries)).flatMap fun a =>
          d.findings rule a.1 a.2 := by
  rw [findings, h]
  dsimp only
  rw [List.flatMap_subtype (g := fun a => d.findings rule a.1 a.2) (fun _ _ => rfl),
    List.unattach_attach]

end Disk

namespace Walking

variable {d : Disk} {rule : WalkRule}

/-- What a walk will have found when it ends. -/
def outcome (d : Disk) (rule : WalkRule) (w : Walking) : List Finding :=
  w.found.reverse ++ w.ahead.flatMap fun a => d.findings rule a.1 a.2

/-- A round does not change what a walk will have found. -/
theorem outcome_round (d : Disk) (rule : WalkRule) (w : Walking) :
    (w.round d rule).outcome d rule = w.outcome d rule := by
  obtain ⟨ahead, found⟩ := w
  cases ahead with
  | nil => rfl
  | cons a ahead =>
    obtain ⟨place, e⟩ := a
    unfold outcome round
    dsimp only
    rw [List.flatMap_cons]
    cases hl : Disk.unlistable? place e with
    | some fault => simp [Disk.findings_of_unlistable hl]
    | none => simp [Disk.findings_of_listable hl]

/-- A walk finds what is found by recursion. -/
theorem finish_eq (d : Disk) (rule : WalkRule) (w : Walking) :
    w.finish d rule = w.outcome d rule := by
  induction w using finish.induct d rule with
  | case1 w h =>
    rw [finish, if_pos h, outcome, h]
    simp
  | case2 w h ih => rw [finish, if_neg h, ih, outcome_round]

end Walking

namespace Disk

variable {d : Disk} {rule : WalkRule} {place : Path.Absolute}

/-- The walk of a path that leads somewhere begins with that place ahead. -/
theorem walk_eq_finish {path : String} {e : Entry}
    (h : d.entry (d.absolute path).toString = .ok e) :
    d.walk rule path = Walking.finish d rule ⟨[(d.absolute path, e)], []⟩ := by
  unfold walk
  dsimp only
  rw [h]

theorem walk_of_entry {path : String} {e : Entry}
    (h : d.entry (d.absolute path).toString = .ok e) :
    d.walk rule path = d.findings rule (d.absolute path) e := by
  rw [walk_eq_finish h, Walking.finish_eq, Walking.outcome]
  simp

/-- The walk of a path that leads nowhere. -/
theorem walk_of_fault {path : String} {fault : FileFault}
    (h : d.entry (d.absolute path).toString = .error fault) :
    d.walk rule path = [.unlisted ⟨fault, (d.absolute path).toString⟩] := by
  unfold walk
  dsimp only
  rw [h]

/-! ## Places -/

/-- What is found at an entry of a directory or below it. -/
def findingsAt (d : Disk) (rule : WalkRule) (place : Path.Absolute) (searchable : Bool)
    (e : String × Entry) : List Finding :=
  d.ownFinding rule place e.1 e.2 ++
    if e.2.isDirectory && !rule.ignored.contains e.1 then
      d.findings rule (place.child e.1) (e.2.behind searchable)
    else []

theorem flatMap_filter {α β : Type} (p : α → Bool) (f : α → List β) (l : List α) :
    (l.filter p).flatMap f = l.flatMap fun a => if p a then f a else [] := by
  induction l with
  | nil => rfl
  | cons a l ih =>
    rw [List.filter_cons, List.flatMap_cons, ← ih]
    split <;> simp

/-- In some order a walk of a directory finds what there is at each of its entries. -/
theorem findings_perm {e : Entry} (h : unlistable? place e = none) :
    (d.findings rule place e).Perm
      (e.entries.flatMap (d.findingsAt rule place e.isSearchable)) := by
  have hsort : (sortByName e.entries).Perm e.entries := List.mergeSort_perm _ _
  rw [findings_of_listable h, directoriesAt, List.flatMap_map, flatMap_filter]
  exact ((hsort.flatMap_right _).append (hsort.flatMap_right _)).trans
    (List.flatMap_append_perm e.entries _ _)

theorem at_of_mem_ownFinding {name : String} {e : Entry} {x : Finding}
    (h : x ∈ d.ownFinding rule place name e) : x.At (place.child name) := by
  unfold ownFinding at h
  split at h
  · cases h
  · dsimp only at h
    split at h
    · split at h
      · rw [List.mem_singleton.mp h]
        exact .file
      · cases h
    · cases h
    · rw [List.mem_singleton.mp h]
      exact .unclear _
  · split at h
    · rw [List.mem_singleton.mp h]
      exact .file
    · cases h

theorem nodup_ownFinding (name : String) (e : Entry) :
    ((d.ownFinding rule place name e).map Finding.path).Nodup := by
  unfold ownFinding
  split
  · simp
  · dsimp only
    split
    · split <;> simp
    · simp
    · simp
  · split <;> simp

theorem at_of_unlistable {e : Entry} {fault : FileFault} (h : unlistable? place e = some fault) :
    Finding.At place (.unlisted ⟨fault, place.toString⟩) := by
  unfold unlistable? at h
  split at h
  · split at h
    · cases h
      exact .tooLong
    · split at h
      · cases h
      · cases h
        exact .denied
  · cases h
    exact .notDirectory

/-- Behind a directory that cannot be searched a walk finds only that it can open nothing. -/
theorem findings_behind_false (d : Disk) (rule : WalkRule) (e : Entry) : ∃ fault,
    d.findings rule place (e.behind false) = [.unlisted ⟨fault, place.toString⟩] ∧
      Finding.At place (.unlisted ⟨fault, place.toString⟩) := by
  have hsome : (unlistable? place (e.behind false)).isSome := by
    rw [Entry.behind, if_neg Bool.false_ne_true, unlistable?]
    split <;> rfl
  obtain ⟨fault, hfault⟩ := Option.isSome_iff_exists.mp hsome
  exact ⟨fault, findings_of_unlistable hfault, at_of_unlistable hfault⟩

/-- What a walk finds lies at its place or below it. -/
theorem at_of_mem_findings {e : Entry} (he : e.Proper) {place : Path.Absolute} {x : Finding}
    (hx : x ∈ d.findings rule place e) :
    ∃ names, (∀ c ∈ names, Path.IsName c) ∧ x.At (place.descend names) := by
  induction he generalizing place with
  | file | locked | link =>
    rw [findings_of_unlistable rfl, List.mem_singleton] at hx
    exact ⟨[], by simp, by rw [hx, Path.Absolute.descend_nil]; exact .notDirectory⟩
  | @directory readable searchable es distinct names entries ih =>
    cases hl : unlistable? place (.directory readable searchable es) with
    | some fault =>
      rw [findings_of_unlistable hl, List.mem_singleton] at hx
      exact ⟨[], by simp, by rw [hx, Path.Absolute.descend_nil]; exact at_of_unlistable hl⟩
    | none =>
      rw [(findings_perm hl).mem_iff] at hx
      obtain ⟨e, he, hx⟩ := List.mem_flatMap.mp hx
      rcases List.mem_append.mp hx with hx | hx
      · exact ⟨[e.1], by simpa using names e he, at_of_mem_ownFinding hx⟩
      · split at hx
        · have hat : ∃ below, (∀ c ∈ below, Path.IsName c) ∧
              x.At ((place.child e.1).descend below) := by
            cases searchable with
            | false =>
              obtain ⟨fault, heq, hat⟩ := findings_behind_false d rule e.2
              rw [Entry.isSearchable, heq, List.mem_singleton] at hx
              exact ⟨[], by simp, by rw [hx, Path.Absolute.descend_nil]; exact hat⟩
            | true => exact ih e he hx
          obtain ⟨below, hbelow, hat⟩ := hat
          rw [Path.Absolute.descend_child] at hat
          exact ⟨e.1 :: below, List.forall_mem_cons.mpr ⟨names e he, hbelow⟩, hat⟩
        · cases hx

/-- What is found at an entry lies at its name or below it. -/
theorem at_of_mem_findingsAt {searchable : Bool} {e : String × Entry} (he : e.2.Proper)
    {x : Finding} (hx : x ∈ d.findingsAt rule place searchable e) :
    ∃ names, (∀ c ∈ names, Path.IsName c) ∧ x.At (place.descend (e.1 :: names)) := by
  rcases List.mem_append.mp hx with hx | hx
  · exact ⟨[], by simp, at_of_mem_ownFinding hx⟩
  · split at hx
    · obtain ⟨names, hnames, hat⟩ := at_of_mem_findings (he.behind searchable) hx
      rw [Path.Absolute.descend_child] at hat
      exact ⟨names, hnames, hat⟩
    · cases hx

/-- What is found at entries of different names has different paths. -/
theorem disjoint_findingsAt (hp : place.Valid) {searchable : Bool} {a b : String × Entry}
    (ha : Path.IsName a.1) (hb : Path.IsName b.1) (hea : a.2.Proper) (heb : b.2.Proper)
    (hne : a.1 ≠ b.1) :
    List.Disjoint ((d.findingsAt rule place searchable a).map Finding.path)
      ((d.findingsAt rule place searchable b).map Finding.path) := by
  intro path hpa hpb
  obtain ⟨x, hx, rfl⟩ := List.mem_map.mp hpa
  obtain ⟨y, hy, hxy⟩ := List.mem_map.mp hpb
  obtain ⟨ns, hns, hatx⟩ := at_of_mem_findingsAt hea hx
  obtain ⟨ms, hms, haty⟩ := at_of_mem_findingsAt heb hy
  have heq : place.descend (a.1 :: ns) = place.descend (b.1 :: ms) :=
    Path.Absolute.toString_injective (hp.descend (List.forall_mem_cons.mpr ⟨ha, hns⟩))
      (hp.descend (List.forall_mem_cons.mpr ⟨hb, hms⟩))
      (by rw [← hatx.path_eq, ← haty.path_eq, hxy])
  simp only [Path.Absolute.descend, Path.Absolute.mk.injEq, List.append_cancel_left_eq,
    List.cons.injEq] at heq
  exact hne heq.2.1

/-- A walk finds nothing twice. -/
theorem nodup_findings {e : Entry} (he : e.Proper) {place : Path.Absolute} (hp : place.Valid) :
    ((d.findings rule place e).map Finding.path).Nodup := by
  induction he generalizing place with
  | file | locked | link =>
    rw [findings_of_unlistable rfl]
    simp
  | @directory readable searchable es distinct names entries ih =>
    cases hl : unlistable? place (.directory readable searchable es) with
    | some fault => simp [findings_of_unlistable hl]
    | none =>
      rw [((findings_perm hl).map _).nodup_iff, List.map_flatMap, List.nodup_flatMap]
      constructor
      · intro e he
        -- An entry is a directory or something of its own, but not both.
        unfold findingsAt
        split
        · rename_i hdir
          have hown : d.ownFinding rule place e.1 e.2 = [] := by
            cases hd : e.2 <;> simp_all [Entry.isDirectory, ownFinding]
          rw [hown, List.nil_append]
          cases searchable with
          | false =>
            obtain ⟨fault, heq, -⟩ := findings_behind_false d rule e.2
            rw [Entry.isSearchable, heq]
            exact List.nodup_singleton _
          | true => exact ih e he (hp.child (names e he))
        · rw [List.append_nil]
          exact nodup_ownFinding e.1 e.2
      · refine (List.pairwise_map.mp distinct).imp_of_mem fun ha hb hne => ?_
        exact disjoint_findingsAt hp (names _ ha) (names _ hb) (entries _ ha) (entries _ hb) hne

/-! ## Files -/

theorem mem_walkedFiles {path file : String} :
    file ∈ d.walkedFiles rule path ↔ .file file ∈ d.walk rule path := by
  unfold walkedFiles
  rw [List.mem_filterMap]
  constructor
  · rintro ⟨x, hx, hf⟩
    cases x <;> cases hf
    exact hx
  · intro h
    exact ⟨_, h, rfl⟩

/-- The files of a walk are named by the place that it begins at and names below it. -/
theorem exists_of_mem_walkedFiles (hd : d.Proper) {path file : String}
    (h : file ∈ d.walkedFiles rule path) :
    ∃ names, (∀ c ∈ names, Path.IsName c) ∧ file = ((d.absolute path).descend names).toString := by
  rw [mem_walkedFiles] at h
  cases he : d.entry (d.absolute path).toString with
  | error f =>
    rw [walk_of_fault he] at h
    cases List.mem_singleton.mp h
  | ok e =>
    rw [walk_of_entry he] at h
    obtain ⟨names, hnames, hat⟩ := at_of_mem_findings (hd.entry he) h
    exact ⟨names, hnames, hat.path_eq⟩

/-- The files of a walk are named in full: no matter where a disk is, they are the same places. -/
theorem absolute_walkedFiles (hd : d.Proper) {path file : String}
    (h : file ∈ d.walkedFiles rule path) (d' : Disk) : d'.absolute file = d.absolute file := by
  obtain ⟨names, hnames, rfl⟩ := exists_of_mem_walkedFiles hd h
  have hvalid := (hd.absolute path).descend hnames
  unfold absolute at hvalid ⊢
  rw [Path.Absolute.ofText_toString _ hvalid, Path.Absolute.ofText_toString _ hvalid]

/-- A walk finds no file twice. -/
theorem nodup_walkedFiles (hd : d.Proper) (rule : WalkRule) (path : String) :
    (d.walkedFiles rule path).Nodup := by
  have hwalk : ((d.walk rule path).map Finding.path).Nodup := by
    cases he : d.entry (d.absolute path).toString with
    | error f => simp [walk_of_fault he]
    | ok e =>
      rw [walk_of_entry he]
      exact nodup_findings (hd.entry he) (hd.absolute path)
  refine List.Nodup.filterMap ?_ (List.Nodup.of_map _ hwalk)
  intro x y file hx hy
  cases x <;> cases hx
  cases y <;> cases hy
  rfl

/-- Different files of a walk have different keys. -/
theorem documentKey_walkedFiles (hd : d.Proper) (project : Path.Absolute) {path f g : String}
    (hf : f ∈ d.walkedFiles rule path) (hg : g ∈ d.walkedFiles rule path)
    (h : Path.documentKey project (d.absolute f) = Path.documentKey project (d.absolute g)) :
    f = g := by
  obtain ⟨ns, hns, rfl⟩ := exists_of_mem_walkedFiles hd hf
  obtain ⟨ms, hms, rfl⟩ := exists_of_mem_walkedFiles hd hg
  have hvf := (hd.absolute path).descend hns
  have hvg := (hd.absolute path).descend hms
  unfold Disk.absolute at h hvf hvg ⊢
  rw [Path.Absolute.ofText_toString _ hvf, Path.Absolute.ofText_toString _ hvg] at h
  rw [Path.documentKey_injective project hvf hvg rfl h]

end Disk

end SourceAtlas
