import SourceAtlas.Proofs.Session.Ledger

/-!
# What a run answers for

A run that goes through to its end has counted every file of the walk once, and the class under
which it has counted a file tells what it has done to the store. A run that is cut short has counted
only some of them, but leaves nothing half done.

Results:
* `usable_through`: a run with a store that can be used goes through to its end.
* `accounted_through`: what a run has told and done.
-/

namespace SourceAtlas

namespace Pool

/-- What a run over files tells of them when it goes through to its end, and what it has done then
    to the store that was `first`. -/
structure Accounted (d : Disk) (project : Path.Absolute) (files : List String) (first : Store)
    (turns : List Turn) (w : Pool) : Prop where
  handled : (w.handled.map Prod.fst).Perm files
  total : w.run.tally.processed + w.run.tally.skipped + w.run.tally.failed = files.length
  processed : w.run.tally.processed = w.handled.countP fun x => FileClass.of x.2 = .processed
  skipped : w.run.tally.skipped = w.handled.countP fun x => FileClass.of x.2 = .skipped
  failed : w.run.tally.failed = w.handled.countP fun x => FileClass.of x.2 = .failed
  /-- There is one failure for each file that failed, under its key. -/
  failures : (w.run.tally.sortedFailures.map FileFailure.path).Perm
    ((w.handled.filter fun x => FileClass.of x.2 = .failed).map fun x => d.key project x.1)
  distinct : (w.run.tally.sortedFailures.map FileFailure.path).Nodup
  sorted : w.run.tally.sortedFailures.Pairwise fun a b => a.path ≤ b.path
  reported : ∀ file f, (file, .error f) ∈ w.handled → ∃ kind,
    FailureKind.ofFamily? f.family = some kind ∧
      ⟨d.key project file, f.message, kind⟩ ∈ w.run.tally.sortedFailures
  done : w.run.progress.map Progress.done = List.range' 1 files.length
  outOf : ∀ x ∈ w.run.progress, x.total = files.length
  told : (w.run.progress.map Progress.key).Perm (files.map (d.key project))
  toldOnce : (w.run.progress.map Progress.key).Nodup
  unchanged : ∀ file r, (file, r) ∈ w.handled → FileClass.of r ≠ .processed →
    first.SameAt w.run.store (d.key project file)
  written : ∀ file r, (file, r) ∈ w.handled → FileClass.of r = .processed →
    ∃ doc, Offered d project turns file doc ∧ w.run.store.Bears doc
  others : ∀ q, q ∉ files.map (d.key project) → first.SameAt w.run.store q

section Accounts

variable {d : Disk} {project : Path.Absolute} {force : Bool} {rule : WalkRule} {path : String}
variable {files : List String} {turns : List Turn} {s : Store} {w : Pool}

/-- A run that has handled all files, and has not ended, answers for them. -/
theorem accounted_of_ledger {calls : List (String × String)}
    (hcounted : Counted (d.key project) files (turns.map Turn.move) w)
    (hledger : Ledger d project force files s turns calls w) (hfiles : w.run.files = files)
    (hcomplete : (Move.order (turns.map Turn.move)).Perm files)
    (hdistinct : (files.map (d.key project)).Nodup) : Accounted d project files s turns w := by
  have hhandled : (w.handled.map Prod.fst).Perm files := by rwa [hcounted.order]
  have hlength : w.handled.length = files.length := by
    rw [← hhandled.length_eq, List.length_map]
  have hkeys : (w.handled.map fun x => d.key project x.1).Perm (files.map (d.key project)) := by
    have hmapped := hhandled.map (d.key project)
    rwa [List.map_map] at hmapped
  have hnodup := hkeys.nodup_iff.mpr hdistinct
  have hfailures : w.run.tally.sortedFailures.Perm
      (w.handled.filterMap fun x => failureOf (d.key project x.1) x.2) := by
    rw [hcounted.tally]
    exact Tally.perm_ofHandled _ _
  have hpaths := hfailures.map FileFailure.path
  rw [Tally.paths_filterMap _ hcounted.returned] at hpaths
  obtain ⟨hdone, htold, houtOf⟩ := TreeRun.progress_ofHandled hcounted.tally
  constructor
  case handled => exact hhandled
  case total =>
    rw [← hlength, hcounted.tally]
    exact Tally.total_ofHandled hcounted.returned
  case processed => rw [hcounted.tally]; rfl
  case skipped => rw [hcounted.tally]; rfl
  case failed =>
    rw [hcounted.tally]
    exact Tally.failed_ofHandled _ hcounted.returned
  case failures => exact hpaths
  case distinct =>
    rw [hpaths.nodup_iff]
    exact hnodup.sublist (List.filter_sublist.map _)
  case sorted => exact Tally.pairwise_sortedFailures _
  case reported =>
    intro file f hx
    cases hk : FailureKind.ofFamily? f.family with
    | none => exact absurd (ofFamily?_eq_none_iff.mp hk) (hcounted.returned _ hx f rfl)
    | some kind =>
      refine ⟨kind, rfl, hfailures.mem_iff.mpr (List.mem_filterMap.mpr ⟨_, hx, ?_⟩)⟩
      simp [failureOf, hk]
  case done => rw [hdone, hlength]
  case outOf =>
    intro x hx
    rw [houtOf x hx, hfiles]
  case told => rwa [htold]
  case toldOnce => rwa [htold]
  case unchanged => exact fun file r hx => hledger.unchanged hx
  case written => exact fun file r hx => hledger.written hx
  case others =>
    intro q hq
    refine hledger.frame q fun x hx heq => hq ?_
    rw [← hkeys.mem_iff, ← heq]
    exact List.mem_map_of_mem hx

/-- A run with an open store goes through to its end, unless an embedder says that a store cannot be
    used. -/
theorem usable_through {w : Pool} (h : w.Usable)
    (hembed : ∀ t ∈ turns, ∀ text f, t.now.embed text = .error f → f.family ≠ .unavailable) :
    (w.through project force turns).Usable := by
  induction turns generalizing w with
  | nil => exact h
  | cons t turns ih =>
    rw [List.forall_mem_cons] at hembed
    exact ih (h.step hembed.1 t.move) hembed.2

/-- A run whose turns follow a schedule, and that has not ended, answers for all files. -/
theorem accounted_of_schedule (hd : d.Proper)
    (hturns : IsSchedule (d.walkedFiles rule path) (turns.map Turn.move))
    (hended : ((start d s rule path).through project force turns).run.ended = none) :
    Accounted d project (d.walkedFiles rule path) s turns
      ((start d s rule path).through project force turns) := by
  have hfollows := follows_of_isSchedule hturns (Disk.nodup_walkedFiles hd rule path)
  exact accounted_of_ledger (counted_through hd hfollows hended)
    (ledger_through hd project force s hfollows) (files_through _ turns) hturns.complete
    (nodup_keys hd project rule path)

/-- **Every file is counted once, and its class tells what was done.** Whatever state a store is in,
    whatever embedders answer in whatever turn of a run with workers, and in whatever order the
    files of a walk are handled: a run that goes through to its end answers for all of them; and
    at any time, also where the store itself ends the run, there is under every key what was there
    before, or a new document as a whole. -/
theorem accounted_through (hd : d.Proper) (s : Store) (project : Path.Absolute) (force : Bool)
    (hturns : IsSchedule (d.walkedFiles rule path) (turns.map Turn.move)) :
    (((start d s rule path).through project force turns).run.ended = none →
      Accounted d project (d.walkedFiles rule path) s turns
        ((start d s rule path).through project force turns)) ∧
    ∀ early late, turns = early ++ late → ∀ q,
      s.SameAt ((start d s rule path).through project force early).run.store q ∨
      ∃ file ∈ d.walkedFiles rule path, d.key project file = q ∧
        ∃ doc, Offered d project early file doc ∧
          ((start d s rule path).through project force early).run.store.Bears doc := by
  refine ⟨accounted_of_schedule hd hturns, ?_⟩
  rintro early late rfl q
  have hfollows := follows_of_isSchedule hturns (Disk.nodup_walkedFiles hd rule path)
  rw [List.map_append] at hfollows
  exact (ledger_through hd project force s hfollows.of_append).old_or_new
    hfollows.of_append.files q

/-- Both files of the sample disk are prepared before the second and then the first is handled. The
    embedder fails when the first is prepared. -/
def sampleTurns : List Turn :=
  [⟨⟨sampleDisk, fun _ => .error ⟨.embedding, "EmbeddingUnavailable", "down"⟩⟩, .prepare "/a.js"⟩,
    ⟨⟨sampleDisk, sampleEmbedder⟩, .prepare "/b.js"⟩,
    ⟨⟨sampleDisk, sampleEmbedder⟩, .handle "/b.js"⟩,
    ⟨⟨sampleDisk, sampleEmbedder⟩, .handle "/a.js"⟩]

theorem ended_start_sampleDisk (s : Store) :
    (start sampleDisk s ⟨[".js"], []⟩ "/").run.ended = none := by
  cases hf : (start sampleDisk s ⟨[".js"], []⟩ "/").run.ended with
  | none => rfl
  | some f =>
    have hnone := walkedFiles_of_fault proper_sampleDisk hf
    rw [walkedFiles_sampleDisk] at hnone
    cases hnone

theorem isSchedule_sampleTurns :
    IsSchedule (sampleDisk.walkedFiles ⟨[".js"], []⟩ "/") (sampleTurns.map Turn.move) :=
  isSchedule_sampleMoves

theorem usable_sampleTurns {s : Store} (ho : s.isOpen) (project : Path.Absolute) (force : Bool) :
    ((start sampleDisk s ⟨[".js"], []⟩ "/").through project force sampleTurns).Usable := by
  refine usable_through (usable_start ho sampleDisk _ "/") fun t ht text f h => ?_
  simp only [sampleTurns, List.mem_cons, List.not_mem_nil, or_false] at ht
  rcases ht with rfl | rfl | rfl | rfl <;> cases h
  simp

theorem accounted_through_sampleTurns :
    Accounted sampleDisk ⟨false, []⟩ (sampleDisk.walkedFiles ⟨[".js"], []⟩ "/") (.fresh ":memory:")
      sampleTurns ((start sampleDisk (.fresh ":memory:") ⟨[".js"], []⟩ "/").through ⟨false, []⟩ false
        sampleTurns) :=
  (accounted_through proper_sampleDisk (.fresh ":memory:") ⟨false, []⟩ false
    isSchedule_sampleTurns).1
      (ended_through (ended_start_sampleDisk _) (usable_sampleTurns rfl _ _).ended)

end Accounts

end Pool

end SourceAtlas
