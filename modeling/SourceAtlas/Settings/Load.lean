import SourceAtlas.Files.Disk
import SourceAtlas.Settings.Basic
import SourceAtlas.Settings.Parser
import SourceAtlas.Yaml.Read

/-!
# Settings from files

Which file holds the settings, and the settings that it and the environment come to. A file that
cannot be read or is not well formed counts as empty.

Models `_find_config_file`, `_load_yaml` and `Config.load`.
-/

namespace SourceAtlas

/-- Why loading yields no settings: a value of a setting, or a failure to read the file. -/
inductive LoadError (ε : Type := Yaml.YamlError) where
  | cast (e : CastError)
  | data (e : ε)
  | notUtf8
  deriving BEq, DecidableEq, Repr

/-- How deep collections may be nested where the stack is about empty: the usual limit has room for
two calls at each level. -/
def Yaml.usualDepth : Nat := 490

/-- The library at hand. It decodes a file as a whole before it parses any of it. -/
def Yaml.parser (depth : Nat) : Parser Value Yaml.YamlError where
  cut bytes := [bytes]
  flatten_cut _ := List.flatten_singleton
  early _ := none
  whole cs := Yaml.read depth cs
  isMapping
    | .map _ => true
    | _ => false
  isOwn e := e == .malformed

namespace Settings

def fileNames : List String := [".codebase_context.yaml", ".codebase_context.yml"]

/-- A name inside a directory. -/
def inDirectory (directory name : String) : String :=
  if directory == "" || directory.endsWith "/" then directory ++ name
  else directory ++ "/" ++ name

/-- The home directory, of which slashes at the end do not count. -/
def homeOf (env : Environment) : String :=
  let home := (env "HOME").getD "/"
  let bare := String.ofList (home.toList.reverse.dropWhile (· == '/')).reverse
  if bare == "" then "/" else bare

/-- The files that may hold the settings: the one that is named, or those in the current directory
and in the home directory. -/
def candidates (here : Path.Absolute) (env : Environment) (named : Option String) : List String :=
  match named with
  | none | some "" => [here.toString, homeOf env].flatMap fun dir =>
      fileNames.map (inDirectory dir)
  | some path => [path]

/-- The file that holds the settings: the first of those that exist. -/
def file? (d : Disk) (env : Environment) (named : Option String) : Option String :=
  (candidates d.here env named).find? d.isFile

section

variable {δ ε : Type}

/-- The data that a file holds, if it holds any. A file that cannot be read counts as empty, and so
does one that the library fails on by itself and one whose data are no mapping. -/
def dataOf (p : Parser δ ε) (d : Disk) (path : String) : Except (LoadError ε) (Option δ) :=
  match d.read path with
  | .error _ => .ok none
  | .ok bytes =>
    match p.parse bytes with
    | none => .error .notUtf8
    | some (.error e) => if p.isOwn e then .ok none else .error (.data e)
    | some (.ok data) => .ok (if p.isMapping data then some data else none)

/-- Loads the settings: they are made of the environment and of the data of the file, if it has
any. -/
def loadBy (p : Parser δ ε) (make : Environment → Option δ → Except CastError Settings) (d : Disk)
    (env : Environment) (named : Option String) : Except (LoadError ε) Settings := do
  let data ← match file? d env named with
    | some path => dataOf p d path
    | none => .ok none
  (make env data).mapError .cast

end

/-- The settings that the environment and some data come to. -/
def ofData (env : Environment) (data : Option Value) : Except CastError Settings :=
  resolve env (data.getD (.map []))

/-- Loads the settings. -/
def load (d : Disk) (env : Environment) (named : Option String) : Except LoadError Settings :=
  loadBy (Yaml.parser Yaml.usualDepth) ofData d env named

end Settings

end SourceAtlas
