import SourceAtlas.Proofs.Files.Overwrite
import SourceAtlas.Proofs.Index.Effect
import SourceAtlas.Proofs.Session.Coherence
import SourceAtlas.Proofs.Text.Lines

/-!
# Files that are overwritten with what is stored of them

The hash in a document is that of its content, and the content is read back from its encoding. So a
file that is overwritten with the content of its document is known as it stands, whatever bytes it
was indexed with.

Results:
* `indexFile_of_knows`: nothing is done for a file whose text the store knows.
* `exists_of_processed`: what a store has of a file that was processed.
* `indexFile_written_back`: a file that is overwritten with its content has nothing left to index.
* `carriage_not_mem_serveAll`: no content that is indexed has a carriage return.
-/

namespace SourceAtlas

variable {d : Disk} {embed : Embedder} {s : Store} {project path : Path.Absolute} {force : Bool}

/-- A file has nothing left to index: it is skipped, and neither the embedder nor the store has
    anything to do with it. -/
structure FileRun.IsIdle (r : FileRun) (s : Store) : Prop where
  skipped : r.result = .ok false
  asked : r.asked = []
  store : r.store = s

/-- Nothing is done for a file whose text the store knows. -/
theorem indexFile_of_knows (h : s.Knows d project path) (embed : Embedder) :
    (indexFile d embed s project false path).IsIdle s := by
  have heffect : FileEffect d embed project false path s _ _ _ :=
    fileEffect_finish (rfl : s.hash _ = s.hash _) (.refl s _)
  have hskipped := heffect.skips h
  refine ⟨hskipped, asked_of_knows h, ?_⟩
  rw [← finish_prepare]
  exact store_finish (by rw [hskipped]; simp)

/-- A document that a store bears can be read from it. -/
theorem Store.Bears.exists_get {doc : StoredDocument} (h : s.Bears doc)
    (hpresent : s.tables.references.isSome) :
    ∃ read, s.get doc.path = .ok (some read) ∧ read.content = doc.content := by
  refine ⟨Tables.document s.tables.rows doc.toRow, ?_, rfl⟩
  rw [Store.get_eq h.isOpen hpresent, Tables.row?_eq_head?, h.document]
  rfl

theorem present_of_processed (h : (indexFile d embed s project force path).result = .ok true) :
    (indexFile d embed s project force path).store.tables.references.isSome := by
  rw [← finish_prepare] at h ⊢
  rcases finish_cases (prepare d embed s project force path) s with
    ⟨f, -, hr, -⟩ | ⟨-, hr, -⟩ | ⟨draft, -, hr, hs⟩
  · rw [hr] at h
    cases h
  · rw [hr] at h
    cases h
  · rw [hs]
    cases hu : (s.upsert draft).1 with
    | ok u => exact Store.present_upsert hu
    | error e =>
      rw [hr, hu] at h
      cases h

/-- Of a file that was processed a store has a document, whose content is the text that the file
    had, and the hash of that text. -/
theorem exists_of_processed (h : (indexFile d embed s project force path).result = .ok true) :
    ∃ bytes doc, d.read path.toString = .ok bytes ∧ doc.content = Text.ofFile bytes ∧
      (indexFile d embed s project force path).store.get (Path.documentKey project path) =
        .ok (some doc) ∧
      (indexFile d embed s project force path).store.hash (Path.documentKey project path) =
        .ok (some (Text.Digest.ofText (Text.ofFile bytes))) := by
  have heffect : FileEffect d embed project force path s _ _ _ :=
    fileEffect_finish (rfl : s.hash _ = s.hash _) (.refl s _)
  obtain ⟨doc, hdoc, hbears⟩ := heffect.new (by rw [finish_prepare, h]; rfl)
  rw [finish_prepare] at hbears
  obtain ⟨bytes, v, hread, -, hof⟩ := exists_of_fileOutcome hdoc
  obtain ⟨hpath, hcontent, hhash⟩ := parts_of_documentOf? hof
  obtain ⟨read, hget, hsame⟩ := hbears.exists_get (present_of_processed h)
  refine ⟨bytes, read, hread, hsame.trans hcontent, ?_, ?_⟩
  · rw [← hpath, hget]
  · rw [← hpath, hbears.hash_eq, hhash]

/-- A file is known to a store that has the hash of its text, when its bytes are the encoding of
    that text. -/
theorem Store.knows_of_encoding {bytes : List UInt8}
    (hhash : s.hash (Path.documentKey project path) =
      .ok (some (Text.Digest.ofText (Text.ofFile bytes))))
    (hread : d.read path.toString = .ok (Text.Utf8.encode (Text.ofFile bytes).toList)) :
    s.Knows d project path := by
  refine ⟨_, hread, ?_⟩
  rw [hhash, Text.ofFile_encode_ofFile]

namespace Session

/-- The session after a file was indexed. -/
def afterFile (s : Session) (d : Disk) (embed : Embedder) (path : String) (force : Bool) : Session :=
  s.serve (.indexFile ⟨d, embed⟩ path force)

/-- **Writing back is idle.** Reading a file gives a text without carriage returns, which is read
    back from its encoding. So when a file was indexed and stored, whatever bytes it had, and is
    then overwritten with the encoding of the content that is stored of it, indexing it again does
    nothing, whatever the embedder would answer. -/
theorem indexFile_written_back (s : Session) (d : Disk) (embed : Embedder) (path : String)
    (force : Bool) :
    (∀ bytes, '\r' ∉ (Text.ofFile bytes).toList ∧
      Text.ofFile (Text.Utf8.encode (Text.ofFile bytes).toList) = Text.ofFile bytes) ∧
    ((s.indexFile d embed path force).result = .ok true →
      ∃ bytes doc, d.read (d.absolute path).toString = .ok bytes ∧
        (s.afterFile d embed path force).store.get (s.key d path) = .ok (some doc) ∧
        doc.content = Text.ofFile bytes ∧ '\r' ∉ doc.content.toList ∧
        ∀ embed', ((s.afterFile d embed path force).indexFile
          (d.put (d.absolute path).toString (.file (Text.Utf8.encode doc.content.toList)))
          embed' path false).IsIdle (s.afterFile d embed path force).store) := by
  refine ⟨fun bytes => ⟨Text.carriage_not_mem_ofFile bytes, Text.ofFile_encode_ofFile bytes⟩,
    fun h => ?_⟩
  obtain ⟨bytes, doc, hread, hcontent, hget, hhash⟩ := exists_of_processed h
  refine ⟨bytes, doc, hread, hget, hcontent, ?_, fun embed' => ?_⟩
  · rw [hcontent]
    exact Text.carriage_not_mem_ofFile bytes
  · have hhere : (d.put (d.absolute path).toString
        (.file (Text.Utf8.encode doc.content.toList))).absolute path = d.absolute path := by
      unfold Disk.absolute
      rw [Disk.here_put]
    unfold Session.indexFile
    rw [hhere]
    refine indexFile_of_knows (Store.knows_of_encoding hhash ?_) embed'
    rw [Disk.read_put_file hread, hcontent]

/-- A disk with a file of a byte that is no text and of two line ends, neither a line feed alone. -/
def mixedDisk : Disk := .alone [0xFF, 13, 10, 13]

def mixedSession : Session := ⟨default, .fresh ":memory:", ⟨false, []⟩⟩

theorem result_mixedSession :
    (mixedSession.indexFile mixedDisk Pool.sampleEmbedder "/a" false).result = .ok true := by
  have hpath : (mixedDisk.absolute "/a").toString = "/a" := by rfl
  unfold Session.indexFile SourceAtlas.indexFile prepare
  rw [hpath, mixedDisk, Disk.read_alone]
  rfl

theorem indexFile_written_back_mixedSession :
    (mixedSession.indexFile mixedDisk Pool.sampleEmbedder "/a" false).result = .ok true ∧
    ∃ doc, (mixedSession.afterFile mixedDisk Pool.sampleEmbedder "/a" false).store.get "a" =
        .ok (some doc) ∧ doc.content = "\uFFFD\n\n" ∧
      ∀ embed, ((mixedSession.afterFile mixedDisk Pool.sampleEmbedder "/a" false).indexFile
        (mixedDisk.put "/a" (.file [0xEF, 0xBF, 0xBD, 10, 10])) embed "/a" false).IsIdle
          (mixedSession.afterFile mixedDisk Pool.sampleEmbedder "/a" false).store := by
  have hpath : (mixedDisk.absolute "/a").toString = "/a" := by rfl
  have hkey : mixedSession.key mixedDisk "/a" = "a" := by rfl
  have htext : Text.ofFile [0xFF, 13, 10, 13] = "\uFFFD\n\n" := by rfl
  have hbytes : Text.Utf8.encode "\uFFFD\n\n".toList = [0xEF, 0xBF, 0xBD, 10, 10] := by rfl
  refine ⟨result_mixedSession, ?_⟩
  obtain ⟨bytes, doc, hread, hget, hcontent, -, hidle⟩ :=
    (indexFile_written_back mixedSession mixedDisk Pool.sampleEmbedder "/a" false).2
      result_mixedSession
  rw [hpath, mixedDisk, Disk.read_alone] at hread
  cases hread
  rw [htext] at hcontent
  rw [hkey] at hget
  rw [hcontent, hpath, hbytes] at hidle
  exact ⟨doc, hget, hcontent, hidle⟩

/-! ## Histories -/

/-- Whatever is asked of a session whose store was empty, no content that it stores has a carriage
    return. -/
theorem carriage_not_mem_serveAll (settings : Settings) (location : String)
    (project : Path.Absolute) (rs : List Request) {docs : List StoredDocument}
    (h : ((Session.mk settings (.fresh location) project).serveAll rs).store.all = .ok docs) :
    ∀ doc ∈ docs, '\r' ∉ doc.content.toList := by
  have hstore : ((Session.mk settings (.fresh location) project).serveAll rs).store.Coherent
      fun _ text _ => '\r' ∉ text.toList := by
    refine coherent_store_serveAll (fun r _ now _ key text v hoffers => ?_)
      (Store.coherent_fresh location)
    obtain ⟨path, bytes, -, -, rfl, -⟩ := hoffers
    exact Text.carriage_not_mem_ofFile bytes
  obtain ⟨m, hcarries, hm⟩ := hstore
  have hshows := Store.shows_of_holds hcarries.isOpen hcarries.wellFormed hcarries.holds
  cases hshows.all.symm.trans h
  intro doc hdoc
  obtain ⟨entry, hentry, rfl⟩ := hshows.exists_entry hdoc
  obtain ⟨v, hv, -⟩ := hm _ entry hentry
  exact hv

end Session

end SourceAtlas
