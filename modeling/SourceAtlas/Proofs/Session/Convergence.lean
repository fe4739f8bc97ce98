import SourceAtlas.Proofs.Session.Account

/-!
# Runs one after another

A run that does not index by force leaves alone what the run before it has brought up to date, and
tries again what has failed there. So after a run without failures there is nothing left to do.

Results:
* `calls_of_knows`: no text is embedded for a file that the store knows.
* `converged_through`: what a run does after another.
-/

namespace SourceAtlas

namespace Pool

/-- What the second of two runs over files has done: `w` is the first run, `w'` the second, and
    `calls` are the texts that the second has asked for. `force` is how the first run indexed. -/
structure Converged (d : Disk) (project : Path.Absolute) (force : Bool) (files : List String)
    (w w' : Pool) (calls : List (String × String)) : Prop where
  /-- What was processed or skipped is left alone. -/
  skipped : ∀ file r, (file, r) ∈ w.handled → FileClass.of r ≠ .failed →
    (file, .ok false) ∈ w'.handled ∧ (∀ text, (file, text) ∉ calls) ∧
      w.run.store.SameAt w'.run.store (d.key project file)
  /-- What failed is tried again. -/
  retried : force = false → ∀ file f, (file, .error f) ∈ w.handled →
    (∃ r, (file, r) ∈ w'.handled ∧ FileClass.of r ≠ .skipped) ∧
      ∀ bytes, d.read (d.absolute file).toString = .ok bytes → (file, Text.ofFile bytes) ∈ calls
  /-- After a run without failures nothing is left to do. -/
  settled : w.run.tally.failed = 0 → w'.run.tally.processed = 0 ∧ w'.run.tally.failed = 0 ∧
    w'.run.tally.skipped = files.length ∧ calls = [] ∧ w'.run.store = w.run.store

section Runs

variable {d : Disk} {project : Path.Absolute} {force : Bool} {rule : WalkRule} {path : String}
variable {files : List String} {turns : List Turn} {first : Store} {w : Pool}
variable {calls : List (String × String)}

/-! ## Files that are known -/

/-- What was done for a file that was handled, where all turns are on one disk. -/
theorem Ledger.effect_on (h : Ledger d project force files first turns calls w)
    (hdisk : ∀ t ∈ turns, t.now.disk = d) {file : String} {r : Except IndexFault Bool}
    (hx : (file, r) ∈ w.handled) : ∃ embed asked, (∀ text ∈ asked, (file, text) ∈ calls) ∧
      FileEffect d embed project force (d.absolute file) first w.run.store asked r := by
  obtain ⟨t, ht, -, asked, hasked, heffect⟩ := h.effect _ hx
  rw [hdisk t ht] at heffect
  exact ⟨t.now.embed, asked, hasked, heffect⟩

/-- What is known is skipped, unless it is indexed by force. -/
theorem Ledger.skips (h : Ledger d project false files first turns calls w)
    (hdisk : ∀ t ∈ turns, t.now.disk = d) {file : String} {r : Except IndexFault Bool}
    (hx : (file, r) ∈ w.handled) (hknows : first.Knows d project (d.absolute file)) :
    r = .ok false := by
  obtain ⟨embed, asked, -, heffect⟩ := h.effect_on hdisk hx
  exact heffect.skips hknows

/-- Nothing is done under the key of a file that the store knows. -/
theorem Ledger.same_of_knows (h : Ledger d project false files first turns calls w)
    (hdisk : ∀ t ∈ turns, t.now.disk = d)
    (hkeys : ∀ f ∈ files, ∀ g ∈ files, d.key project f = d.key project g → f = g)
    (hfiles : ∀ f ∈ Move.order (turns.map Turn.move), f ∈ files) {file : String}
    (hfile : file ∈ files) (hknows : first.Knows d project (d.absolute file)) :
    first.SameAt w.run.store (d.key project file) := by
  by_cases hhandled : ∃ x ∈ w.handled, d.key project x.1 = d.key project file
  · obtain ⟨⟨f, r⟩, hx, hkey⟩ := hhandled
    have hsame : f = file := hkeys _ (hfiles _ (h.handled _ hx)) _ hfile hkey
    rw [← hsame] at hknows ⊢
    exact h.unchanged hx (by simp [h.skips hdisk hx hknows, FileClass.of])
  · simp only [not_exists, not_and] at hhandled
    exact h.frame _ hhandled

/-- What is asked for is asked for a file that is prepared. -/
theorem exists_of_mem_calls {w : Pool} {x : String × String}
    (h : x ∈ w.calls project force turns) : ∃ t ∈ turns, t.move = .prepare x.1 := by
  induction turns generalizing w with
  | nil => cases h
  | cons t turns ih =>
    rw [Pool.calls, List.mem_append] at h
    rcases h with h | h
    · refine ⟨t, List.mem_cons_self, ?_⟩
      unfold Turn.asked at h
      cases hmove : t.move with
      | prepare file =>
        rw [hmove] at h
        obtain ⟨text, -, rfl⟩ := List.mem_map.mp h
        rfl
      | handle file =>
        rw [hmove] at h
        cases h
    · obtain ⟨u, hu, hmove⟩ := ih h
      exact ⟨u, List.mem_cons_of_mem _ hu, hmove⟩

/-- No text is embedded for a file that the store knows, at whatever time of a run it is
    prepared. -/
theorem calls_of_knows (hd : d.Proper) {s : Store} (hdisk : ∀ t ∈ turns, t.now.disk = d)
    (h : Follows (d.walkedFiles rule path) (turns.map Turn.move)) {file : String}
    (hfile : file ∈ d.walkedFiles rule path) (hknows : s.Knows d project (d.absolute file))
    (text : String) : (file, text) ∉ (start d s rule path).calls project false turns := by
  induction turns using List.reverseRecOn with
  | nil => exact List.not_mem_nil
  | append_singleton turns t ih =>
    rw [List.map_append] at h
    rw [List.forall_mem_append] at hdisk
    rw [calls_append, List.mem_append, not_or]
    refine ⟨ih hdisk.1 h.of_append, fun hmem => ?_⟩
    have hsame := (ledger_through hd project false s h.of_append).same_of_knows hdisk.1
      (fun _ hf _ hg => Disk.documentKey_walkedFiles hd project hf hg) h.of_append.files hfile
      hknows
    have hstill := (Store.knows_congr hsame.hash_eq).mpr hknows
    unfold Turn.asked at hmem
    rw [hdisk.2 t (List.mem_singleton_self t)] at hmem
    cases hmove : t.move with
    | prepare f =>
      rw [hmove] at hmem
      obtain ⟨asked, hasked, heq⟩ := List.mem_map.mp hmem
      cases heq
      rw [asked_of_knows hstill] at hasked
      cases hasked
    | handle f =>
      rw [hmove] at hmem
      cases hmem

/-! ## The second run -/

/-- What was processed or skipped is known afterwards. -/
theorem Ledger.knows (h : Ledger d project force files first turns calls w)
    (hdisk : ∀ t ∈ turns, t.now.disk = d) {file : String} {r : Except IndexFault Bool}
    (hx : (file, r) ∈ w.handled) (hclass : FileClass.of r ≠ .failed) :
    w.run.store.Knows d project (d.absolute file) := by
  obtain ⟨embed, asked, -, heffect⟩ := h.effect_on hdisk hx
  exact heffect.knows hclass

/-- What can be read off the ledgers of two runs, where no text is embedded for a file that is
    known. -/
theorem converged_of_ledgers {turns' : List Turn} {w' : Pool} {calls' : List (String × String)}
    (hdisk : ∀ t ∈ turns, t.now.disk = d) (hdisk' : ∀ t ∈ turns', t.now.disk = d)
    (hledger : Ledger d project force files first turns calls w)
    (haccount : Accounted d project files first turns w)
    (hledger' : Ledger d project false files w.run.store turns' calls' w')
    (haccount' : Accounted d project files w.run.store turns' w')
    (hcalls : ∀ file ∈ files, w.run.store.Knows d project (d.absolute file) →
      ∀ text, (file, text) ∉ calls')
    (hown : ∀ x ∈ calls', x.1 ∈ files) : Converged d project force files w w' calls' := by
  have hmem : ∀ file r, (file, r) ∈ w.handled → file ∈ files :=
    fun file r hx => haccount.handled.mem_iff.mp (List.mem_map_of_mem hx)
  have hagain : ∀ file ∈ files, ∃ r, (file, r) ∈ w'.handled := by
    intro file hfile
    obtain ⟨⟨_, r⟩, hr, rfl⟩ := List.mem_map.mp (haccount'.handled.mem_iff.mpr hfile)
    exact ⟨r, hr⟩
  constructor
  case skipped =>
    intro file r hx hclass
    have hknows := hledger.knows hdisk hx hclass
    obtain ⟨r', hr'⟩ := hagain file (hmem file r hx)
    cases hledger'.skips hdisk' hr' hknows
    refine ⟨hr', hcalls file (hmem file r hx) hknows, ?_⟩
    exact haccount'.unchanged file _ hr' (by simp [FileClass.of])
  case retried =>
    rintro rfl file f hx
    obtain ⟨r', hr'⟩ := hagain file (hmem file _ hx)
    have hfamily : ∀ g, r' = .error g → g.family ≠ .unavailable := by
      rintro g rfl hunavailable
      obtain ⟨kind, hkind, -⟩ := haccount'.reported _ _ hr'
      rw [ofFamily?_eq_none_iff.mpr hunavailable] at hkind
      cases hkind
    obtain ⟨embed, asked, -, heffect⟩ := hledger.effect_on hdisk hx
    obtain ⟨embed', asked', hasked', heffect'⟩ := hledger'.effect_on hdisk' hr'
    obtain ⟨htried, htext⟩ := heffect'.tries heffect.not_knows hfamily
    exact ⟨⟨r', hr', htried⟩, fun bytes hread => hasked' _ (htext bytes hread)⟩
  case settled =>
    intro hfailed
    rw [haccount.failed, List.countP_eq_zero] at hfailed
    have hknows : ∀ file ∈ files, w.run.store.Knows d project (d.absolute file) := by
      intro file hfile
      obtain ⟨⟨_, r⟩, hr, rfl⟩ := List.mem_map.mp (haccount.handled.mem_iff.mpr hfile)
      exact hledger.knows hdisk hr (by simpa using hfailed _ hr)
    have hall : ∀ x ∈ w'.handled, x.2 = .ok false := by
      rintro ⟨file, r⟩ hx
      have hfile := haccount'.handled.mem_iff.mp (List.mem_map_of_mem hx)
      exact hledger'.skips hdisk' hx (hknows file hfile)
    refine ⟨?_, ?_, ?_, ?_, hledger'.still fun x hx => by simp [hall x hx]⟩
    · rw [haccount'.processed, List.countP_eq_zero]
      exact fun x hx => by simp [hall x hx, FileClass.of]
    · rw [haccount'.failed, List.countP_eq_zero]
      exact fun x hx => by simp [hall x hx, FileClass.of]
    · rw [haccount'.skipped, ← haccount'.handled.length_eq, List.length_map, List.countP_eq_length]
      exact fun x hx => by simp [hall x hx, FileClass.of]
    · rw [List.eq_nil_iff_forall_not_mem]
      exact fun x hx => hcalls x.1 (hown x hx) (hknows _ (hown x hx)) x.2 hx

/-- **Runs converge.** Whatever state the store was in, and whatever embedders answer in whatever
    turn of either run, after a run that went through to its end another one over the same files,
    which does not index by force and whose workers prepare no other files: it skips all that the
    first processed or skipped, and tries again what the first has failed on. -/
theorem converged_through (hd : d.Proper) {s : Store} {turns' : List Turn} {w' : Pool}
    (hw : w = (start d s rule path).through project force turns)
    (hw' : w' = (start d w.run.store rule path).through project false turns')
    (hdisk : ∀ t ∈ turns, t.now.disk = d) (hdisk' : ∀ t ∈ turns', t.now.disk = d)
    (hturns : IsSchedule (d.walkedFiles rule path) (turns.map Turn.move))
    (hturns' : IsSchedule (d.walkedFiles rule path) (turns'.map Turn.move))
    (hown : ∀ t ∈ turns', ∀ file, t.move = .prepare file → file ∈ d.walkedFiles rule path)
    (hended : w.run.ended = none) (hended' : w'.run.ended = none) :
    Converged d project force (d.walkedFiles rule path) w w'
      ((start d w.run.store rule path).calls project false turns') := by
  have hnodup := Disk.nodup_walkedFiles hd rule path
  have hfollows := follows_of_isSchedule hturns hnodup
  have hfollows' := follows_of_isSchedule hturns' hnodup
  subst hw hw'
  refine converged_of_ledgers hdisk hdisk' (ledger_through hd project force s hfollows)
    (accounted_of_schedule hd hturns hended) (ledger_through hd project false _ hfollows')
    (accounted_of_schedule hd hturns' hended') (fun file hfile hknows text => ?_) fun x hx => ?_
  · exact calls_of_knows hd hdisk' hfollows' hfile hknows text
  · obtain ⟨t, ht, hmove⟩ := exists_of_mem_calls hx
    exact hown t ht x.1 hmove

/-- The moves of the sample with an embedder that answers. -/
def sampleRetry : List Turn := sampleMoves.map (Turn.mk ⟨sampleDisk, sampleEmbedder⟩)

/-- A run with an embedder that fails on one file. -/
def sampleFirst : Pool :=
  (start sampleDisk (.fresh ":memory:") ⟨[".js"], []⟩ "/").through ⟨false, []⟩ false sampleTurns

/-- The run after it. -/
def sampleSecond : Pool :=
  (start sampleDisk sampleFirst.run.store ⟨[".js"], []⟩ "/").through ⟨false, []⟩ false sampleRetry

theorem converged_through_sampleSecond :
    Converged sampleDisk ⟨false, []⟩ false (sampleDisk.walkedFiles ⟨[".js"], []⟩ "/") sampleFirst
      sampleSecond ((start sampleDisk sampleFirst.run.store ⟨[".js"], []⟩ "/").calls ⟨false, []⟩
        false sampleRetry) := by
  have husable : sampleFirst.Usable := usable_sampleTurns rfl ⟨false, []⟩ false
  have husable' : sampleSecond.Usable := by
    refine usable_through (usable_start husable.isOpen sampleDisk _ "/") fun t ht text f h => ?_
    obtain ⟨move, -, rfl⟩ := List.mem_map.mp ht
    cases h
  refine converged_through proper_sampleDisk rfl rfl ?_ ?_ isSchedule_sampleTurns
    isSchedule_sampleMoves ?_ (ended_through (ended_start_sampleDisk _) husable.ended)
    (ended_through (ended_start_sampleDisk _) husable'.ended)
  · simp [sampleTurns]
  · simp [sampleRetry]
  · rw [walkedFiles_sampleDisk]
    simp [sampleRetry, sampleMoves]

end Runs

end Pool

end SourceAtlas
