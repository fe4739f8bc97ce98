import SourceAtlas.Json.Write
import SourceAtlas.Number.Shortest
import SourceAtlas.Session.Basic

/-!
# Reports

The texts that commands print.

Models `_print_summary`, `IndexSummary.as_dict`, and what `_cmd_search`, `_cmd_context`, `_cmd_refs`
and `_cmd_status` print. How long an index took is given from outside (`Style.elapsed`).
-/

namespace SourceAtlas.Command

open Number

/-- How scores and times are shown: a score and a time as values of a data file, and a time as a
text. -/
structure Style where
  score : Float → Value
  elapsed : Value
  elapsedText : String

/-- A text with blanks behind it up to a width. -/
def padded (width : Nat) (s : String) : String :=
  s ++ String.ofList (List.replicate (width - s.length) ' ')

def ruler (c : Char) (width : Nat) : String := String.ofList (List.replicate width c)

def lines (ls : List String) : String := String.join (ls.map (· ++ "\n"))

def object (es : List (String × Value)) : Value := .map (es.map fun e => (.text e.1, e.2))

/-! ## Cells

Where a cell is shown it reads as a text. Commands store texts only: they come upon bytes where
another program has put them into the store, and then fail where a text is needed. That they fail is
left out. -/

instance : Coe Cell String := ⟨Cell.toText⟩

instance : Coe (Option Cell) (Option String) := ⟨Option.map Cell.toText⟩

def textOrNull : Option String → Value
  | some s => .text s
  | none => .null

/-! ## Index -/

def failureValue (f : FileFailure) : Value :=
  object [("path", .text f.path), ("error", .text f.error), ("kind", .text f.kind.toString)]

def indexValue (style : Style) (t : Tally) : Value :=
  object [("processed", .int t.processed), ("skipped", .int t.skipped), ("failed", .int t.failed),
    ("failures", .list (t.sortedFailures.map failureValue)), ("elapsed_seconds", style.elapsed)]

def indexReport (style : Style) (t : Tally) : String :=
  lines (["", "Index complete:", s!"  Processed: {t.processed}", s!"  Skipped:   {t.skipped}",
    s!"  Failed:    {t.failed}", s!"  Time:      {style.elapsedText}s"] ++
    t.sortedFailures.map fun f => s!"    ! {f.path}  [{f.kind.toString}] {f.error}")

/-! ## Search -/

def occurrenceValue (o : Occurrence) : Value :=
  object [("line", .int o.line), ("type", .text o.kind.toString),
    ("source", textOrNull o.source)]

def resultValue (style : Style) (r : SearchResult) : Value :=
  object [("path", .text r.path), ("score", style.score r.score),
    ("variables", object (r.names.map fun (name, os) => (name, .list (os.map occurrenceValue))))]

/-- How many names a result shows. -/
def shownNames : Nat := 10

def resultLines (number : Nat) (r : SearchResult) : List String :=
  let names : List String := r.names.map fun (name, _) => name
  let more := names.length - shownNames
  let tail := if more == 0 then "" else s!" (+{more} more)"
  let shown := "       Variables: " ++ ", ".intercalate (names.take shownNames) ++ tail
  ["", s!"  [{number}] {r.path}", s!"       Score    : {fixedText 4 r.score}"] ++
    if names.isEmpty then [] else [shown]

def searchReport (query : String) (results : List SearchResult) : String :=
  let quoted := Text.quoted query
  if results.isEmpty then lines ["No results found for: " ++ quoted]
  else
    lines (["", s!"Search results for: {quoted}  [{results.length} result(s)]", ruler '-' 70] ++
      results.zipIdx.flatMap (fun (r, i) => resultLines (i + 1) r) ++ [""])

/-! ## References -/

def referenceLine (r : StoredReference) : String :=
  let source := match r.source with
    | none => ""
    | some s => if s.isEmpty then "" else "  from " ++ s
  s!"  {padded 12 r.kind.toString} {r.path}:{r.line}{source}"

def referencesReport (name : String) (rs : List StoredReference) : String :=
  if rs.isEmpty then lines [s!"  (no references to: {name})"]
  else
    lines (["", "References to '" ++ name ++ s!"'  [{rs.length} result(s)]", ruler '-' 60] ++
      rs.map referenceLine)

/-! ## Status -/

def statusReport (s : StoreSummary) : String :=
  let row (name value : String) : String := s!"  {padded 20 name} {value}"
  let dimensions := match s.dimensions with
    | none | some 0 => "-"
    | some n => toString n
  let kinds := sortByName (s.byKind.map fun (k, n) => (k.toString, n))
  lines (["", "Context Store Status", ruler '=' 40, row "db_path" s.location,
    row "documents" (toString s.documents), row "references" (toString s.references),
    row "dimensions" dimensions] ++
    kinds.map (fun (name, n) => s!"    {padded 18 name} {n}") ++ [""])

end SourceAtlas.Command
