import SourceAtlas.Proofs.Store.Statement

/-!
# Transactions and runs of writes

A write begins a transaction, runs its statements on the tables, and ends the transaction: with a
commit where all statements succeed, with a rollback where one fails.

Results:
* `rollback_execute`: whatever statements have run since a transaction began, and wherever they
  stopped, a rollback gives the store from before it began.
* `upsert_ok_iff`, `delete_ok_iff`: when a write succeeds, and the tables that it leaves.
* `write_cases`: all that a write can do.
* `failed_write_restores`: a write that fails leaves the store as it was, and in no run behind it
  does a write fail at its beginning, unless a transaction was under way before.
-/

namespace SourceAtlas

namespace Store

/-! ## Transactions -/

section Transactions

variable {α : Type} {s s' : Store} {path : Option String} {work : Statement α} {a : α}

theorem begin?_eq_some_iff :
    s.begin? = some s' ↔ s.saved = none ∧ s' = { s with saved := s.tables } := by
  unfold begin?
  cases h : s.saved <;> simp [@eq_comm _ s']

/-- Whatever statements have run since a transaction began, a rollback gives the store from before
    it began. -/
theorem rollback_execute (h : s.begin? = some s') (work : Statement α) :
    (s'.execute work).2.rollback = s := by
  obtain ⟨hs, rfl⟩ := begin?_eq_some_iff.mp h
  simp [execute, rollback, ← hs]

/-- A transaction that fails leaves the store as it was. -/
theorem transaction_error {e : StoreError} (h : (s.transaction path work).1 = .error e) :
    (s.transaction path work).2 = s := by
  unfold transaction at h ⊢
  split
  · rfl
  · rename_i ho
    rw [if_neg ho] at h
    cases hb : s.begin? with
    | none => rfl
    | some s₁ =>
      have hr := rollback_execute hb work
      rw [hb] at h
      dsimp only at h ⊢
      cases hx : s₁.execute work with
      | mk result s₂ =>
        rw [hx] at h hr
        cases result with
        | ok a => cases h
        | error f => exact hr

/-- A transaction succeeds iff the store is open, no other is under way, and its statements do. -/
theorem transaction_ok_iff : s.transaction path work = (.ok a, s') ↔
    s.isOpen ∧ s.saved = none ∧ ∃ t, work.Leaves s.tables a t ∧ s' = { s with tables := t } := by
  unfold transaction begin? execute Statement.Leaves
  cases ho : s.isOpen with
  | false => simp
  | true =>
    cases hs : s.saved with
    | some t => simp
    | none =>
      cases hw : work.on s.tables with
      | mk result t => cases result <;> simp [hw, commit, @eq_comm _ s']

/-- A transaction fails at its beginning only where another is under way. -/
theorem saved_of_transaction_cannotBegin {p : Option String} (hw : work.FailsInside)
    (h : (s.transaction path work).1 = .error (.rolledBack p .cannotBegin)) : s.saved.isSome := by
  unfold transaction begin? execute at h
  cases ho : s.isOpen with
  | false => simp [ho] at h
  | true =>
    cases hs : s.saved with
    | some t => rfl
    | none =>
      cases hx : work.on s.tables with
      | mk result t =>
        cases result with
        | ok a => simp [ho, hs, hx] at h
        | error f =>
          simp only [ho, hs, hx, Bool.not_true, Bool.false_eq_true, if_false, Option.isSome_none,
            Except.error.injEq, StoreError.rolledBack.injEq] at h
          exact absurd h.2 (hw s.tables f (by rw [hx])).1

/-- A transaction of an open store, with no other under way, fails as its statements do. -/
theorem transaction_fails {f : WriteFault} (ho : s.isOpen) (hs : s.saved = none)
    (h : work.Fails s.tables f) : s.transaction path work = (.error (.rolledBack path f), s) := by
  have hfirst : (s.transaction path work).1 = .error (.rolledBack path f) := by
    unfold transaction begin? execute
    cases hw : work.on s.tables with
    | mk result t =>
      unfold Statement.Fails at h
      rw [hw] at h
      dsimp only at h
      simp [ho, hs, hw, h]
  exact Prod.ext hfirst (transaction_error hfirst)

/-- A transaction of an open store fails with a rollback. -/
theorem transaction_rolledBack {e : StoreError} (ho : s.isOpen)
    (h : (s.transaction path work).1 = .error e) : ∃ f, e = .rolledBack path f := by
  unfold transaction at h
  rw [ho] at h
  cases hb : s.begin? with
  | none =>
    rw [hb] at h
    cases h
    exact ⟨_, rfl⟩
  | some s₁ =>
    rw [hb] at h
    cases hx : s₁.execute work with
    | mk result s₂ =>
      cases result with
      | ok a => simp [hx] at h
      | error f =>
        simp only [hx, Bool.not_true, Bool.false_eq_true, if_false] at h
        cases h
        exact ⟨f, rfl⟩

end Transactions

/-! ## Writes -/

theorem upsert_of_vector {s : Store} {d : Draft} {limit : Nat} {v : List Single}
    (hv : storedVector d.vector limit = .ok v) :
    s.upsert d limit = s.transaction d.path (Statement.replace d v) := by
  unfold upsert
  rw [hv]

/-- A draft whose vector cannot be stored is refused before a transaction begins. -/
theorem upsert_of_vector_error (s : Store) {d : Draft} {limit : Nat} {f : VectorFault}
    (hv : storedVector d.vector limit = .error f) :
    s.upsert d limit = (.error .vectorTooLarge, s) ∨
      s.upsert d limit = (.error (.rolledBack d.path (.vector f)), s) := by
  unfold upsert
  rw [hv]
  split
  · exact Or.inl rfl
  · rename_i h
    cases h
    exact Or.inr rfl
  · rename_i h
    cases h

theorem upsert_error {s : Store} {d : Draft} {limit : Nat} {e : StoreError}
    (h : (s.upsert d limit).1 = .error e) : (s.upsert d limit).2 = s := by
  cases hv : storedVector d.vector limit with
  | error f => rcases upsert_of_vector_error s hv with h' | h' <;> rw [h']
  | ok v =>
    rw [upsert_of_vector hv] at h ⊢
    exact transaction_error h

theorem upsert_ok_iff {s s' : Store} {d : Draft} : s.upsert d = (.ok (), s') ↔
    s.isOpen ∧ s.saved = none ∧ s.tables.references.isSome ∧
      ∃ doc, d.document? = some doc ∧
        (∀ row, s.tables.documents.find? (fun r => some r.path != some doc.path) = some row →
          row.dimensions = doc.vector.length) ∧
        (∀ r ∈ doc.references, fitsColumn r.line) ∧
        s' = { s with
          tables := (s.tables.without doc.path).put doc.toRow
            (numbered s.tables.nextId doc.references) } := by
  cases hv : storedVector d.vector with
  | error f =>
    constructor
    · intro h
      rcases upsert_of_vector_error s hv with h' | h' <;> rw [h'] at h <;> cases h
    · rintro ⟨-, -, -, doc, hdoc, -⟩
      cases hv.symm.trans (Draft.document?_eq_some_iff.mp hdoc).2.2.1
  | ok v =>
    rw [upsert_of_vector hv, transaction_ok_iff]
    constructor
    · rintro ⟨ho, hs, t, hl, rfl⟩
      obtain ⟨href, hdim, doc, hdoc, hall, rfl⟩ := (Statement.replace_leaves hv).mp hl
      obtain ⟨hp, -, hv', -⟩ := Draft.document?_eq_some_iff.mp hdoc
      cases hv.symm.trans hv'
      rw [hp] at hdim ⊢
      exact ⟨ho, hs, href, doc, hdoc, hdim, hall, rfl⟩
    · rintro ⟨ho, hs, href, doc, hdoc, hdim, hall, rfl⟩
      obtain ⟨hp, -, hv', -⟩ := Draft.document?_eq_some_iff.mp hdoc
      cases hv.symm.trans hv'
      rw [← hp] at hdim ⊢
      exact ⟨ho, hs, _, (Statement.replace_leaves hv).mpr ⟨href, hdim, doc, hdoc, hall, rfl⟩, rfl⟩

/-- A document with a line that does not fit is refused, if there is nothing else to refuse. -/
theorem upsert_lineTooLarge {s : Store} {d : Draft} {doc : StoredDocument} (ho : s.isOpen)
    (hs : s.saved = none) (ht : s.tables.references.isSome) (hdoc : d.document? = some doc)
    (hdim : ∀ row, s.tables.documents.find? (fun r => some r.path != some doc.path) = some row →
      row.dimensions = doc.vector.length)
    (hline : ∃ r ∈ doc.references, ¬ fitsColumn r.line) :
    (s.upsert d).1 = .error (.rolledBack (some doc.path) (.unbindable .tooLarge)) := by
  obtain ⟨hp, -, hv, -⟩ := Draft.document?_eq_some_iff.mp hdoc
  rw [← hp] at hdim
  have hfails := Statement.replace_lineTooLarge ht hdoc hdim hline
  rw [upsert_of_vector hv, ← hp, transaction_fails ho hs hfails]

/-- A draft that an open store does not take is not the fault of the store. -/
theorem family_of_upsert {s : Store} {d : Draft} {e : StoreError} (ho : s.isOpen)
    (h : (s.upsert d).1 = .error e) : e.family ≠ .unavailable := by
  cases hv : storedVector d.vector with
  | error f =>
    rcases upsert_of_vector_error s hv with h' | h' <;> rw [h'] at h <;> cases h <;>
      simp [StoreError.family]
  | ok v =>
    rw [upsert_of_vector hv] at h
    obtain ⟨f, rfl⟩ := transaction_rolledBack ho h
    simp [StoreError.family]

theorem delete_ok_iff {s s' : Store} {path : Option String} {removed : Bool} :
    s.delete path = (.ok removed, s') ↔ s.isOpen ∧ s.saved = none ∧ s.tables.references.isSome ∧
      removed = s.tables.documents.any (fun r => some r.path == path) ∧
      s' = { s with tables := s.tables.without path } := by
  unfold delete
  rw [transaction_ok_iff]
  simp only [Statement.remove_leaves]
  constructor
  · rintro ⟨ho, hs, t, ⟨href, hr, rfl⟩, rfl⟩
    exact ⟨ho, hs, href, hr, rfl⟩
  · rintro ⟨ho, hs, href, hr, rfl⟩
    exact ⟨ho, hs, _, ⟨href, hr, rfl⟩, rfl⟩

end Store

/-- What can be asked of a store that changes it. -/
inductive Write where
  | upsert (d : Draft)
  | delete (path : Option String)

namespace Store

/-- Carries out a write. Whether a removal found a document is left out of the answer. -/
def write (s : Store) : Write → Except StoreError Unit × Store
  | .upsert d => s.upsert d
  | .delete path =>
    let (removed, s) := s.delete path
    (removed.map fun _ => (), s)

/-- The store after writes, which may fail. -/
def writeAll (s : Store) (ws : List Write) : Store := ws.foldl (fun s w => (s.write w).2) s

/-- What each of the writes comes to. -/
def outcomes (s : Store) : List Write → List (Except StoreError Unit)
  | [] => []
  | w :: ws => (s.write w).1 :: (s.write w).2.outcomes ws

/-- The writes that succeed. -/
def accepted (s : Store) : List Write → List Write
  | [] => []
  | w :: ws =>
    match s.write w with
    | (.ok (), s) => w :: s.accepted ws
    | (.error _, s) => s.accepted ws

@[simp] theorem write_upsert (s : Store) (d : Draft) : s.write (.upsert d) = s.upsert d := rfl

@[simp] theorem write_delete (s : Store) (path : Option String) :
    s.write (.delete path) = ((s.delete path).1.map fun _ => (), (s.delete path).2) := rfl

theorem write_error {s : Store} {w : Write} {e : StoreError} (h : (s.write w).1 = .error e) :
    (s.write w).2 = s := by
  cases w with
  | upsert d => exact upsert_error h
  | delete path =>
    rw [write_delete] at h ⊢
    cases hd : (s.delete path).1 with
    | ok removed => rw [hd] at h; cases h
    | error f => exact transaction_error hd

/-- A write fails at its beginning only where a transaction is under way. -/
theorem saved_of_write_cannotBegin {s : Store} {w : Write} {p : Option String}
    (h : (s.write w).1 = .error (.rolledBack p .cannotBegin)) : s.saved.isSome := by
  cases w with
  | upsert d =>
    rw [write_upsert] at h
    cases hv : storedVector d.vector with
    | error f => rcases upsert_of_vector_error s hv with h' | h' <;> rw [h'] at h <;> cases h
    | ok v =>
      rw [upsert_of_vector hv] at h
      exact saved_of_transaction_cannotBegin (Statement.replace_failsInside d v) h
  | delete path =>
    rw [write_delete] at h
    cases hd : (s.delete path).1 with
    | ok removed => rw [hd] at h; cases h
    | error f =>
      rw [hd] at h
      cases h
      exact saved_of_transaction_cannotBegin (Statement.remove_failsInside path) hd

/-- All that a write can do: fail and leave the store as it was, put a document in the place of the
    one under its path, or take one away. -/
theorem write_cases (s : Store) (w : Write) :
    (∃ e, s.write w = (.error e, s)) ∨
    (∃ d doc, w = .upsert d ∧ d.document? = some doc ∧
      (∀ row, s.tables.documents.find? (fun r => some r.path != some doc.path) = some row →
        row.dimensions = doc.vector.length) ∧
      (∀ r ∈ doc.references, fitsColumn r.line) ∧
      s.write w = (.ok (), { s with
        tables := (s.tables.without doc.path).put doc.toRow
          (numbered s.tables.nextId doc.references) })) ∨
    (∃ path, w = .delete path ∧
      s.write w = (.ok (), { s with tables := s.tables.without path })) := by
  cases h : s.write w with
  | mk result s' =>
    cases result with
    | error e =>
      have hs : (s.write w).2 = s := write_error (congrArg Prod.fst h)
      rw [h] at hs
      exact Or.inl ⟨e, by rw [← hs]⟩
    | ok u =>
      cases w with
      | upsert d =>
        obtain ⟨-, -, -, doc, hdoc, hdim, hall, rfl⟩ := upsert_ok_iff.mp h
        exact Or.inr (Or.inl ⟨d, doc, rfl, hdoc, hdim, hall, rfl⟩)
      | delete path =>
        rw [write_delete] at h
        cases hd : s.delete path with
        | mk removed s₁ =>
          rw [hd] at h
          cases removed with
          | error e => cases h
          | ok removed =>
            obtain ⟨-, -, -, -, rfl⟩ := delete_ok_iff.mp hd
            cases h
            exact Or.inr (Or.inr ⟨path, rfl, rfl⟩)

/-- A write changes nothing about a store but its tables. In particular it leaves no transaction
    under way, and ends none that it did not begin. -/
theorem write_frame (s : Store) (w : Write) :
    (s.write w).2 = { s with tables := (s.write w).2.tables } := by
  rcases write_cases s w with ⟨e, h⟩ | ⟨d, doc, -, -, -, -, h⟩ | ⟨path, -, h⟩ <;> rw [h]

theorem writeAll_frame (s : Store) (ws : List Write) :
    s.writeAll ws = { s with tables := (s.writeAll ws).tables } := by
  induction ws generalizing s with
  | nil => rfl
  | cons w ws ih =>
    have hcons : s.writeAll (w :: ws) = (s.write w).2.writeAll ws := rfl
    rw [hcons, ih, write_frame]

theorem outcomes_ne_cannotBegin {s : Store} (hs : s.saved = none) (ws : List Write) :
    ∀ r ∈ s.outcomes ws, ∀ p, r ≠ .error (.rolledBack p .cannotBegin) := by
  induction ws generalizing s with
  | nil => simp [outcomes]
  | cons w ws ih =>
    intro r hr p hp
    rcases List.mem_cons.mp hr with rfl | hr
    · have := saved_of_write_cannotBegin hp
      simp [hs] at this
    · exact ih (by rw [write_frame, hs]) r hr p hp

/-- **Atomicity.** A write that fails, wherever it does, leaves the store as it was: the same
    documents, the same references in the same order, and the same transaction under way, if any.
    So where none was, no later write fails because it cannot begin. -/
theorem failed_write_restores {s : Store} {w : Write} {e : StoreError}
    (h : (s.write w).1 = .error e) :
    (s.write w).2 = s ∧
      (s.saved = none → ∀ ws, ∀ r ∈ (s.write w).2.outcomes ws,
        ∀ p, r ≠ .error (.rolledBack p .cannotBegin)) := by
  have hw := write_error h
  refine ⟨hw, fun hs ws => ?_⟩
  rw [hw]
  exact outcomes_ne_cannotBegin hs ws

/-- A store with one document, which owns one reference. -/
def sample : Store where
  location := ":memory:"
  isOpen := true
  tables :=
    { documents := [⟨"a.js", "let x", [0, 0, 128, 63], 1, "", "js"⟩]
      references := some [⟨1, "a.js", .text "x", .declaration, 1, none⟩]
      nextId := 2 }
  saved := none

/-- A draft for the path of the sample. The second of its references is of no kind that there is. -/
def sampleDraft : Draft where
  path := "a.js"
  content := "x"
  vector := some (.many [.one (.float 1)])
  references := [⟨some (.text "x"), .text "usage", .int 1, none⟩,
    ⟨some (.text "x"), .text "call", .int 2, none⟩]
  hash := ""
  language := "js"

set_option maxRecDepth 20000 in
theorem failed_write_restores_second_reference :
    (sample.write (.upsert sampleDraft)).1 =
        .error (.rolledBack (some "a.js") (.unknownKind "'call'")) ∧
      (sample.write (.upsert sampleDraft)).2 = sample :=
  have h : (sample.write (.upsert sampleDraft)).1 =
      .error (.rolledBack (some "a.js") (.unknownKind "'call'")) := by rfl
  ⟨h, (failed_write_restores h).1⟩

end Store

end SourceAtlas
