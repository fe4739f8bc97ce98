import SourceAtlas.Command.Run
import SourceAtlas.Command.Usage
import SourceAtlas.Embedding.Exchange
import SourceAtlas.Files.Change
import Std.Async.DNS
import Std.Async.TCP

/-!
# The command line

The program itself: it looks at the files that a request is about, runs the request on them, asks
the provider for the vectors that the run wants, and writes what the run has changed. All that is
decided is decided by `Command.run`.

Models the entry point of the package, with the files and the network around it.
-/

namespace SourceAtlas.Program

open Command

/-! ## Looking at files -/

/-- What a name in a directory stands for, links followed. -/
def kindOf (e : IO.FS.DirEntry) : IO (Option IO.FS.FileType) := do
  match ← e.path.metadata.toBaseIO with
  | .ok m => return some m.type
  | .error _ => return none

def isLink (e : IO.FS.DirEntry) : IO Bool := do
  match ← e.path.symlinkMetadata.toBaseIO with
  | .ok m => return m.type == .symlink
  | .error _ => return false

def placeText (parts : List String) : String := "/" ++ "/".intercalate parts

/-- The file of a name, with its content if that can be read. -/
def fileAt (e : IO.FS.DirEntry) : IO Entry := do
  match ← (IO.FS.readBinFile e.path).toBaseIO with
  | .ok bytes => return .file bytes.toList
  | .error _ => return .locked

/-- Adds the directories on the way to a place, and the file that is there with its content. -/
def lookAlong (d : Disk) (parts : List String) : List String → IO Disk
  | [] => return d
  | name :: rest => do
    let e : IO.FS.DirEntry := ⟨placeText parts, name⟩
    let place := parts ++ [name]
    match ← kindOf e with
    | some .dir =>
      let known := (d.root.at? place).any Entry.isDirectory
      lookAlong (if known then d else { d with root := d.root.put place .empty }) place rest
    | some .file =>
      return { d with root := d.root.put place (← fileAt e) }
    | _ => return d

/-- Adds what a path leads to. -/
def look (d : Disk) (path : String) : IO Disk := lookAlong d [] (d.absolute path).parts

/-- The tree at a name, its files without content. A link to a directory leads nowhere. -/
partial def treeAt (e : IO.FS.DirEntry) : IO Entry := do
  match ← kindOf e with
  | some .file => return .file []
  | some .dir =>
    if ← isLink e then return .link ""
    match ← e.path.readDir.toBaseIO with
    | .ok es =>
      return .directory true true (← es.toList.mapM fun e => return (e.fileName, ← treeAt e))
    | .error _ => return .directory false false []
  | _ => return .link ""

/-- Adds the tree below a path, and the content of the files in it that settings want. -/
def lookBelow (d : Disk) (settings : Settings) (path : String) : IO Disk := do
  let d ← look d path
  let parts := (d.absolute path).parts
  match d.root.at? parts with
  | some (.directory _ _ _) =>
    match ← (IO.FS.DirEntry.path ⟨placeText parts, "."⟩).readDir.toBaseIO with
    | .ok es =>
      let es ← es.toList.mapM fun e => return (e.fileName, ← treeAt e)
      let d := { d with root := d.root.put parts (.directory true true es) }
      let rule : WalkRule := .ofLists settings.extensions settings.ignoredDirs
      (d.walkedFiles rule path).foldlM look d
    | .error _ => return { d with root := d.root.put parts (.directory false false []) }
  | _ => return d

/-! ## Asking the provider -/

/-- Receives until the other side has said all. -/
partial def receive (socket : Std.Async.TCP.Socket.Client) (got : ByteArray) : IO ByteArray := do
  match ← (socket.recv? 65536).block with
  | some bytes => receive socket (got ++ bytes)
  | none => return got

/-- Sends a message and receives the answer to it. -/
def exchange (a : Address) (message : List UInt8) : IO ByteArray := do
  let hosts ← (Std.Async.DNS.getAddrInfo a.host (toString a.service)).block
  let some host := hosts[0]? | throw (IO.userError ("unknown host: " ++ a.host))
  let service := UInt16.ofNat a.service
  let socket ← Std.Async.TCP.Socket.Client.mk
  match host with
  | .v4 addr => (socket.connect (.v4 ⟨addr, service⟩)).block
  | .v6 addr => (socket.connect (.v6 ⟨addr, service⟩)).block
  (socket.send ⟨message.toArray⟩).block
  receive socket .empty

/-- What came of a task, if it ends within a time in milliseconds. -/
partial def wait {α : Type} (task : Task (Except IO.Error α)) (time : Float) :
    IO (Option (Except IO.Error α)) := do
  if ← IO.hasFinished task then return some task.get
  else if time ≤ 0 then return none
  else
    IO.sleep 10
    wait task (time - 10)

/-- Asks an endpoint for the vector of a text. -/
def ask (e : Endpoint) (text : String) : IO Reply := do
  match e.message? text with
  | none => return .failed ("no connection to " ++ e.url)
  | some (a, message) =>
    let task ← IO.asTask (exchange a message) .dedicated
    match ← wait task ((e.connectTimeout + e.readTimeout) * 1000) with
    | none => return .timedOut ("no answer from " ++ e.url)
    | some (.error err) => return .failed err.toString
    | some (.ok bytes) => return .ofBytes bytes.toList

/-! ## Running -/

/-- Runs a command line, and again with the replies to what it asked for, until it asks for nothing
new. -/
partial def runAsking (world : (String → Reply) → World) (endpoint : Endpoint)
    (args : List String) (replies : List (String × Reply)) : IO Outcome := do
  let reply (text : String) : Reply := (replies.lookup text).getD (.failed "")
  let o := Command.run (world reply) args
  match (o.asked.filter fun text => (replies.lookup text).isNone).eraseDups with
  | [] => return o
  | texts =>
    let new ← texts.mapM fun text => return (text, ← ask endpoint text)
    runAsking world endpoint args (replies ++ new)

/-- Makes a change on the disk of the operating system. -/
def apply : Change → IO Unit
  | .directory place => IO.FS.createDirAll (placeText place)
  | .file place content => IO.FS.writeBinFile (placeText place) ⟨content.toArray⟩

/-- Tells what came of a run, and answers its exit code. -/
def report (o : Outcome) : IO UInt32 := do
  IO.print o.out
  IO.eprint o.err
  match o.exit with
  | .ok code => return UInt32.ofNat code
  | .error f =>
    IO.eprintln f.message
    return 1

/-- The environment, as far as settings come from it. -/
def environment : IO Environment := do
  let known ← ("HOME" :: Settings.variableNames).mapM fun name => return (name, ← IO.getEnv name)
  return fun name => (known.lookup name).join

/-- The disk of a request: the files that may hold its settings, its store, and what it is to
index. -/
def diskOf (env : Environment) (r : Request) : IO (Disk × Settings) := do
  let here := Path.Absolute.ofText ⟨false, []⟩ (← IO.currentDir).toString
  let d : Disk := ⟨Entry.empty.put here.parts .empty, here⟩
  let d ← (Settings.candidates here env r.settings).foldlM look d
  match Settings.load d env r.settings with
  | .error _ => return (d, default)
  | .ok settings =>
    let d ← look d (r.store.getD settings.storePath)
    let d ← look d settings.logDir
    match r.task with
    | .index root _ _ _ => return (← lookBelow d settings root, settings)
    | _ => return (d, settings)

/-- Runs a request and writes what it has changed. -/
def carryOut (args : List String) (r : Request) : IO UInt32 := do
  let begun ← IO.monoMsNow
  let env ← environment
  let (disk, settings) ← diskOf env r
  let elapsed := Float.ofNat ((← IO.monoMsNow) - begun) / 1000
  let world (reply : String → Reply) : World :=
    { disk := disk
      environment := env
      embedder := fun s => (Endpoint.ofSettings s).embedder reply
      style := ⟨.float, .float elapsed, Number.fixedText 1 elapsed⟩ }
  let o ← runAsking world (.ofSettings settings) args []
  (Change.between disk.root o.disk.root).forM apply
  report o

end SourceAtlas.Program

/-- The program: its exit code is 2 where the arguments are wrong. -/
def main (args : List String) : IO UInt32 := do
  match SourceAtlas.Command.Request.ofArguments args with
  | .error .help =>
    IO.print SourceAtlas.Command.usage
    return 0
  | .error .usage =>
    IO.eprint SourceAtlas.Command.usage
    return 2
  | .ok r => SourceAtlas.Program.carryOut args r
