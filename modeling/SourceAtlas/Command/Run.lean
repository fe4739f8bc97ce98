import SourceAtlas.Command.Arguments
import SourceAtlas.Command.Notice
import SourceAtlas.Command.Report

/-!
# Running commands

Carries out what the arguments of the command line ask for: what is printed, the exit code, and the
disk afterwards.

Models `main` with its handlers `_cmd_index` to `_cmd_status`. Of `setup_logger` the directory is
made; what is written to its log file is left out.
-/

namespace SourceAtlas.Command

/-- What a command runs in. -/
structure World where
  disk : Disk
  environment : Environment
  embedder : Settings → Embedder
  style : Style

/-- What came of a command. A fault that it does not report is left to its caller. -/
structure Outcome where
  exit : Except SessionFault Nat
  out : String
  err : String
  asked : List String
  disk : Disk

/-- What came of a task in an open session. -/
structure TaskRun where
  result : Except SessionFault Nat
  out : String
  err : String
  asked : List String
  session : Session

/-! ## Tasks -/

/-- What came of a task that only reads. -/
def readOnly (s : Session) (r : Except SessionFault String) : TaskRun :=
  match r with
  | .ok out => ⟨.ok 0, out, "", [], s⟩
  | .error f => ⟨.error f, "", "", [], s⟩

/-- What came of a search whose results are to be shown. -/
def searched (s : Session) (run : SearchRun) (report : List SearchResult → String) : TaskRun :=
  let err := searchNotices run
  match run.results with
  | .ok rs => ⟨.ok 0, report rs, err, run.asked, s⟩
  | .error e => ⟨.error (.search e), "", err, run.asked, s⟩

/-- The value of search results. -/
def resultsText (style : Style) (rs : List SearchResult) : String :=
  Json.writeIndented (.list (rs.map (resultValue style))) ++ "\n"

/-- Carries out a task in an open session. -/
def runTask (w : World) (chatty : Bool) (s : Session) (d : Disk) (task : Task) : TaskRun :=
  let embed := w.embedder s.settings
  match task with
  | .index root force json quiet =>
    let run := s.indexTree d embed (d.absolute root).toString force
    let err := indexNotices run quiet chatty
    let s := { s with store := run.store }
    match run.ended with
    | some f => ⟨.error (.index f), "", err, run.asked, s⟩
    | none =>
      let out := if json then Json.writeIndented (indexValue w.style run.tally) ++ "\n"
        else indexReport w.style run.tally
      ⟨.ok (if run.tally.failed == 0 then 0 else 1), out, err, run.asked, s⟩
  | .search query k json =>
    searched s (s.search embed query k) fun rs =>
      if json then resultsText w.style rs else searchReport query rs
  | .context query k =>
    searched s (s.search embed query k) fun rs =>
      contextOf (rs.map fun r => (r.path, r.content)) ++ "\n"
  | .references name kind =>
    readOnly s (((s.store.find name kind).mapError .store).map (referencesReport name))
  | .remove path =>
    match s.remove d path with
    | (.error e, s) => ⟨.error (.store e), "", "", [], s⟩
    | (.ok true, s) => ⟨.ok 0, lines ["Removed " ++ path], "", [], s⟩
    | (.ok false, s) => ⟨.ok 1, lines ["Not indexed: " ++ path], "", [], s⟩
  | .status => readOnly s ((s.store.summary.mapError .store).map statusReport)

/-! ## Requests -/

/-- How a fault that a command reports is introduced. -/
def introduction? : FaultFamily → Option String
  | .unavailable => some "Store unavailable: "
  | .embedding => some "Embedding provider unavailable: "
  | .store | .index => some "Error: "
  | .io | .other => none

/-- The outcome with its fault reported, where that is done. -/
def reported (o : Outcome) : Outcome :=
  match o.exit with
  | .ok _ => o
  | .error f =>
    match introduction? f.family with
    | some intro => { o with exit := .ok 1, err := o.err ++ intro ++ f.message ++ "\n" }
    | none => o

/-- What a task prints before its session is opened. -/
def preface (d : Disk) : Task → String
  | .index root _ _ _ => lines ["Indexing: " ++ (d.absolute root).toString]
  | _ => ""

/-- Makes the directory of log files, where they are asked for. -/
def makeLogDirectory (w : World) (r : Request) : Except SessionFault Disk :=
  if r.logFile then do
    let settings ← (Settings.load w.disk w.environment r.settings).mapError .settings
    (w.disk.makeDirectories settings.logDir).mapError .file
  else .ok w.disk

/-- Carries out a request: opens a session, does the task in it, and closes it. -/
def runRequest (w : World) (r : Request) : Outcome :=
  match makeLogDirectory w r with
  | .error f => ⟨.error f, "", "", [], w.disk⟩
  | .ok d =>
    let out := preface d r.task
    match Settings.load d w.environment r.settings with
    | .error e => ⟨.error (.settings e), out, "", [], d⟩
    | .ok settings =>
      match Session.start d r.store settings "." with
      | (.error e, d) => reported ⟨.error (.store e), out, "", [], d⟩
      | (.ok s, d) =>
        let run := runTask w (r.verbose || r.logFile) s d r.task
        let (_, d) := run.session.finish d
        reported ⟨run.result, out ++ run.out, run.err, run.asked, d⟩

/-- Runs a command line. -/
def run (w : World) (args : List String) : Outcome :=
  match Request.ofArguments args with
  | .error .help => ⟨.ok 0, "", "", [], w.disk⟩
  | .error .usage => ⟨.ok 2, "", "", [], w.disk⟩
  | .ok r => runRequest w r

end SourceAtlas.Command
