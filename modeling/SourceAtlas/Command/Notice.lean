import SourceAtlas.Session.Basic

/-!
# Notices

What a command says about its course beside its result: one line for each thing that went wrong on
the way, and a bar that shows how far an index has come.

Models the warnings of the package's loggers as `main` sets them up, and the bar of `_cmd_index`. Of
what is logged at lower levels only the first line of an index is kept, and a bar is not drawn while
it moves.
-/

namespace SourceAtlas.Command

/-- A line of the log with the part of the program that it comes from. -/
def logLine (level source text : String) : String :=
  level ++ "  codebase_context." ++ source ++ "  " ++ text ++ "\n"

def warning (source text : String) : String := logLine "WARNING" source text

/-- The bar of an index. It begins at the start of its line and does not end it. -/
def bar (done total : Nat) : String := s!"\rIndexing: {done}/{total}"

/-! ## Notices of an index -/

/-- What a walk has to say about a finding. -/
def findingNotice : Finding → String
  | .file _ => ""
  | .unlisted e => warning "indexer" ("Cannot read directory " ++ e.path ++ ": " ++ e.message)
  | .unclear e => warning "indexer" ("Cannot stat " ++ e.path ++ ": " ++ e.message)

def failureNotice (f : FileFailure) : String :=
  (if f.kind == .unexpected then
    logLine "ERROR" "indexer" ("Unexpected error indexing " ++ f.path) else "") ++
    warning "indexer" ("Failed to index " ++ f.path ++ ": " ++ f.error)

def unparsedNotice (e : ParseFailure) : String := warning "extractor" e.message

/-- What an index has to say. The bar is drawn at its beginning and behind its first file. -/
def indexNotices (run : TreeRun) (quiet chatty : Bool) : String :=
  let drawn (done : Nat) : String := if quiet then "" else bar done run.files.length
  let walked := String.join (run.findings.map findingNotice)
  let begun := if chatty then logLine "INFO" "indexer" "Indexing" else ""
  let failures := run.tally.failures.reverse
  let of (key : String) : String :=
    String.join ((run.unparsed.filter fun e => e.path == key).map unparsedNotice) ++
      String.join ((failures.filter fun f => f.path == key).map failureNotice)
  let handled := match run.tally.handled.reverse with
    | [] => ""
    | first :: rest => of first ++ drawn 1 ++ String.join (rest.map of)
  let ended := if quiet then "" else bar run.tally.total run.files.length ++ "\n"
  drawn 0 ++ walked ++ begun ++ handled ++ ended

/-! ## Notices of a search -/

def searchNotices (run : SearchRun) : String :=
  String.join (run.unscored.map fun u => warning "retriever" u.message)

end SourceAtlas.Command
