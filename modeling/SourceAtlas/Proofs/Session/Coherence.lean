import SourceAtlas.Proofs.Index.Document
import SourceAtlas.Proofs.Index.Pool
import SourceAtlas.Session.History

/-!
# Stored documents are of one text

A file whose hash is known is left alone, so a document that was put together from two versions of a
file would stay. There is none: whatever is asked of a session, in whatever order, and however files
change and embedders fail in between, all parts of a stored document are of its content, which is a
text that its file has had.

Results:
* `Store.Coherent.finish`: what finishing a preparation of one text keeps.
* `Pool.coherent_through`: what a run with workers keeps, whatever its turns.
* `Session.coherent_serve`: what a request keeps.
* `Session.coherent_serveAll`: the documents of a store after any requests.
-/

namespace SourceAtlas

/-! ## Documents of one text -/

/-- A document as it is read all of whose parts are of its content, where `answered` tells which
    texts the file of a key has had, and which vectors these were answered with. -/
structure StoredDocument.Coherent (answered : String → String → Nested → Prop)
    (doc : StoredDocument) : Prop where
  hash : doc.hash = Text.Digest.ofText doc.content
  language : doc.language = languageOf doc.path
  references : doc.references =
    ((extracted doc.path doc.content).map (Reference.stored doc.path)).mergeSort
      StoredReference.lineLe
  vector : ∃ v a, answered doc.path doc.content v ∧ v.toDoubles = .ok a ∧
    doc.vector = a.elements.map Single.ofFloat

/-- Every document is that of its content with a vector which that content was answered with. -/
def Catalogue.Coherent (answered : String → String → Nested → Prop) (m : Catalogue) : Prop :=
  ∀ p doc, m p = some doc → ∃ v, answered p doc.content v ∧ documentOf? p doc.content v = .ok doc

/-- A store that carries a catalogue of such documents. -/
def Store.Coherent (answered : String → String → Nested → Prop) (s : Store) : Prop :=
  ∃ m, s.Carries m ∧ m.Coherent answered

/-- What was prepared to be written, if anything, is the draft of a text with a vector which that
    text was answered with. -/
def Preparation.Answered (answered : String → String → Nested → Prop) (p : Preparation) : Prop :=
  ∀ draft, p.draft = .ok (some draft) →
    ∃ key text v, answered key text v ∧ draft = draftOf key text (extracted key text) v

section Coherence

variable {answered : String → String → Nested → Prop}

/-- A document of a coherent catalogue is read with all its parts of its content. -/
theorem Catalogue.Coherent.inOrder {m : Catalogue} (h : m.Coherent answered) {p : String}
    {doc : StoredDocument} (hdoc : m p = some doc) : doc.inOrder.Coherent answered := by
  obtain ⟨v, hv, hof⟩ := h p doc hdoc
  obtain ⟨hvector, heq, -⟩ := documentOf?_eq_ok_iff.mp hof
  obtain ⟨a, ha, hsingles⟩ := exists_of_storedVector hvector
  obtain ⟨path, content, vector, hash, language, references⟩ := doc
  simp only [documentOf, StoredDocument.mk.injEq, true_and] at heq
  obtain ⟨rfl, hhash, hlanguage, hreferences⟩ := heq
  refine ⟨hhash, hlanguage, ?_, v, a, hv, ha, hsingles⟩
  dsimp only [StoredDocument.inOrder]
  rw [hreferences]

theorem Catalogue.Coherent.enter {m : Catalogue} (h : m.Coherent answered) {key text : String}
    {v : Nested} (hv : answered key text v) :
    (m.enter (documentOf? key text v)).Coherent answered := by
  cases hof : documentOf? key text v with
  | error e => exact h
  | ok doc =>
    obtain ⟨hpath, hcontent, -⟩ := parts_of_documentOf? hof
    intro p doc' hdoc'
    simp only [Catalogue.enter, Function.update_apply] at hdoc'
    split at hdoc'
    · rename_i hp
      cases hdoc'
      rw [hp, hpath, hcontent]
      exact ⟨v, hv, hof⟩
    · exact h p doc' hdoc'

theorem Catalogue.Coherent.erase {m : Catalogue} (h : m.Coherent answered) (path : String) :
    Catalogue.Coherent answered (Function.update m path none) := by
  intro p doc hdoc
  rw [Function.update_apply] at hdoc
  split at hdoc
  · cases hdoc
  · exact h p doc hdoc

/-! ## What single steps keep -/

namespace Store

variable {s : Store}

theorem coherent_fresh (location : String) : (fresh location).Coherent answered :=
  ⟨.empty, carries_fresh location, fun _ _ h => by cases h⟩

theorem Coherent.upsert (h : s.Coherent answered) {key text : String} {v : Nested}
    (hv : answered key text v) :
    (s.upsert (draftOf key text (extracted key text) v)).2.Coherent answered := by
  obtain ⟨m, hcarries, hm⟩ := h
  rcases hcarries.upsert (draftOf key text (extracted key text) v) with
    hsame | ⟨doc, hdoc, hline, hnew⟩
  · exact ⟨m, hsame, hm⟩
  · refine ⟨_, hnew, ?_⟩
    have hentered := hm.enter hv
    rwa [documentOf?_of_document? hdoc hline] at hentered

theorem Coherent.delete (h : s.Coherent answered) (path : String) :
    (s.delete (some path)).2.Coherent answered := by
  obtain ⟨m, hcarries, hm⟩ := h
  rcases hcarries.delete path with hsame | hgone
  · exact ⟨m, hsame, hm⟩
  · exact ⟨_, hgone, hm.erase path⟩

/-- Finishing a preparation of one text keeps a store coherent, whatever has been written since the
    file was prepared. -/
theorem Coherent.finish (h : s.Coherent answered) {p : Preparation} (hp : p.Answered answered) :
    (p.finish s).store.Coherent answered := by
  rcases finish_cases p s with ⟨f, -, -, hs⟩ | ⟨-, -, hs⟩ | ⟨draft, hdraft, -, hs⟩
  · rw [hs]
    exact h
  · rw [hs]
    exact h
  · obtain ⟨key, text, v, hv, rfl⟩ := hp draft hdraft
    rw [hs]
    exact h.upsert hv

end Store

/-- At a moment the file of a key has a text, and the embedder answers it with a vector. -/
def Scene.Offers (now : Scene) (project : Path.Absolute) (key text : String) (v : Nested) : Prop :=
  ∃ path bytes, Path.documentKey project path = key ∧ now.disk.read path.toString = .ok bytes ∧
    Text.ofFile bytes = text ∧ now.embed text = .ok v

/-- What is prepared at a moment is of a text and a vector of that moment. -/
theorem answered_prepare {now : Scene} {s : Store} {project path : Path.Absolute} {force : Bool}
    (hnow : ∀ key text v, now.Offers project key text v → answered key text v) :
    (prepare now.disk now.embed s project force path).Answered answered := by
  intro draft hdraft
  obtain ⟨bytes, v, hread, hv, heq⟩ := draft_of_prepare hdraft
  exact ⟨_, _, v, hnow _ _ v ⟨path, bytes, rfl, hread, rfl, hv⟩, heq⟩

/-! ## What runs keep -/

/-- Indexing files one after another keeps a store coherent. -/
theorem coherent_indexFiles {now : Scene} {project : Path.Absolute} {force : Bool}
    (hnow : ∀ key text v, now.Offers project key text v → answered key text v) {run : TreeRun}
    (h : run.store.Coherent answered) (files : List String) :
    (indexFiles now.disk now.embed project force run files).store.Coherent answered := by
  induction files generalizing run with
  | nil => exact h
  | cons file files ih =>
    have hadd : (run.add (indexFile now.disk now.embed run.store project force
        (now.disk.absolute file))).store.Coherent answered := by
      rw [TreeRun.store_add, ← finish_prepare]
      exact h.finish (answered_prepare hnow)
    rw [indexFiles_cons]
    split
    · exact hadd
    · exact ih hadd

namespace Pool

variable {w : Pool} {project : Path.Absolute} {force : Bool}

/-- What always holds of a run with workers: its store is coherent, and what is ready is of texts
    that were answered. -/
structure Coherent (answered : String → String → Nested → Prop) (w : Pool) : Prop where
  store : w.run.store.Coherent answered
  ready : ∀ file p, w.ready file = some p → p.Answered answered

theorem Coherent.step (h : w.Coherent answered) {t : Turn}
    (hnow : ∀ key text v, t.now.Offers project key text v → answered key text v) :
    (w.step t.now.disk t.now.embed project force t.move).Coherent answered := by
  cases t.move with
  | prepare file =>
    refine ⟨h.store, fun f p hp => ?_⟩
    rw [ready_step_prepare] at hp
    split at hp
    · rw [← Option.some.inj hp]
      exact answered_prepare hnow
    · exact h.ready f p hp
  | handle file =>
    rcases step_handle_cases w file with hs | ⟨p, -, hp, hs⟩
    · rw [hs]
      exact h
    · rw [hs]
      refine ⟨?_, h.ready⟩
      rw [TreeRun.store_add]
      exact h.store.finish (h.ready file p hp)

/-- Whatever files are prepared and handled, and whenever, a run keeps its store coherent. -/
theorem coherent_through {turns : List Turn}
    (hnow : ∀ t ∈ turns, ∀ key text v, t.now.Offers project key text v → answered key text v)
    (h : w.Coherent answered) : (w.through project force turns).Coherent answered := by
  induction turns generalizing w with
  | nil => exact h
  | cons t turns ih =>
    rw [List.forall_mem_cons] at hnow
    exact ih hnow.2 (h.step hnow.1)

end Pool

namespace Session

variable {s : Session}

@[simp] theorem project_serve (r : Request) : (s.serve r).project = s.project := by
  cases r <;> rfl

/-- A request keeps the store of a session coherent. -/
theorem coherent_serve {r : Request}
    (hnow : ∀ now ∈ r.scenes, ∀ key text v, now.Offers s.project key text v → answered key text v)
    (h : s.store.Coherent answered) : (s.serve r).store.Coherent answered := by
  cases r with
  | indexFile now path force =>
    exact h.finish (answered_prepare (hnow now (List.mem_singleton_self _)))
  | indexTree now path force =>
    exact coherent_indexFiles (hnow now (List.mem_singleton_self _)) h _
  | indexTogether d path force turns =>
    have hturns : ∀ t ∈ turns, ∀ key text v, t.now.Offers s.project key text v →
        answered key text v := fun t ht => hnow t.now (List.mem_map_of_mem ht)
    exact (Pool.coherent_through hturns ⟨h, fun _ _ hp => by cases hp⟩).store
  | remove d path => exact h.delete _

/-- Requests keep the store of a session coherent. -/
theorem coherent_store_serveAll {rs : List Request}
    (hnow : ∀ r ∈ rs, ∀ now ∈ r.scenes, ∀ key text v, now.Offers s.project key text v →
      answered key text v)
    (h : s.store.Coherent answered) : (s.serveAll rs).store.Coherent answered := by
  induction rs generalizing s with
  | nil => exact h
  | cons r rs ih =>
    rw [List.forall_mem_cons] at hnow
    refine ih ?_ (coherent_serve hnow.1 h)
    rw [project_serve]
    exact hnow.2

end Session

end Coherence

/-! ## Histories -/

/-- At one of the moments of requests the file of a key had a text, and the embedder answered it
    with a vector. -/
def Answered (project : Path.Absolute) (rs : List Request) (key text : String) (v : Nested) :
    Prop :=
  ∃ r ∈ rs, ∃ now ∈ r.scenes, now.Offers project key text v

end SourceAtlas
