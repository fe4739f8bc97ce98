import SourceAtlas.Settings.Cast
import SourceAtlas.Text.Lower

/-!
# Settings

What can be set, and how each setting is resolved: a variable of the environment comes before the
value of a file, and that before the built-in default.

Models `Config` with its defaults: `Settings.resolve` is its constructor.
-/

namespace SourceAtlas

/-- All settings, resolved. -/
structure Settings where
  storePath : String
  baseUrl : String
  model : String
  connectTimeout : Float
  requestTimeout : Float
  maxWorkers : Int
  topK : Int
  minOccurrences : Int
  logDir : String
  extensions : List String
  ignoredDirs : List String
  ignoredNames : List String
  deriving Inhabited

/-- The variables of the environment. -/
abbrev Environment := String → Option String

namespace Settings

/-! ## Defaults -/

def defaultExtensions : List String :=
  [".js", ".jsx", ".mjs", ".cjs", ".ts", ".tsx", ".py", ".java", ".cpp", ".h", ".cs"]

def defaultIgnoredDirs : List String := ["node_modules", ".git", "dist", "build", ".cache",
  "__pycache__", ".venv", "venv", "coverage", ".next"]

/-- Names that every object has. -/
def defaultIgnoredNames : List String := ["constructor", "toString", "toLocaleString", "valueOf",
  "hasOwnProperty", "isPrototypeOf", "propertyIsEnumerable", "__proto__", "__defineGetter__",
  "__defineSetter__", "__lookupGetter__", "__lookupSetter__"]

/-- The variables of the environment that settings come from. -/
def variableNames : List String := ["CODEBASE_CONTEXT_DB_PATH", "OLLAMA_BASE_URL",
  "EMBEDDING_MODEL", "CODEBASE_CONTEXT_CONNECT_TIMEOUT", "CODEBASE_CONTEXT_REQUEST_TIMEOUT",
  "CODEBASE_CONTEXT_MAX_WORKERS", "CODEBASE_CONTEXT_TOP_K", "CODEBASE_CONTEXT_MIN_OCCURRENCES",
  "CODEBASE_CONTEXT_LOG_DIR", "CODEBASE_CONTEXT_EXTENSIONS", "CODEBASE_CONTEXT_IGNORE_DIRS",
  "CODEBASE_CONTEXT_IGNORED_NAMES"]

/-! ## Resolution -/

/-- A single setting: from its variable, else from its value unless that is null, else the
default. -/
def resolveOne {α : Type} (cast : Value → Except CastError α) (env : Environment) (data : Value)
    (name key : String) (default : α) : Except CastError α :=
  match env name with
  | some s => cast (.text s)
  | none =>
    match data.get? key with
    | none | some .null => .ok default
    | some v => cast v

/-- A list setting: a text is split at commas and the items of a list are taken as texts. -/
def resolveList (env : Environment) (data : Value) (name key : String)
    (default : List String) : Except CastError (List String) :=
  match env name with
  | some s => .ok (splitList s)
  | none =>
    match data.get? key with
    | some (.list vs) => vs.mapM Value.castText
    | some (.text s) => .ok (splitList s)
    | _ => .ok default

/-- An extension in lower case, its dot in front. -/
def normalExtension (e : String) : String :=
  if e.startsWith "." then Text.lower e else "." ++ Text.lower e

/-- Resolves all settings from the environment and the values of a file. -/
def resolve (env : Environment) (data : Value) : Except CastError Settings := do
  let text := resolveOne Value.castText env data
  let number := resolveOne Value.castFloat env data
  let integer := resolveOne Value.castInt env data
  let list := resolveList env data
  let storePath ← text "CODEBASE_CONTEXT_DB_PATH" "db_path" ".cache/codebase.db"
  let baseUrl ← text "OLLAMA_BASE_URL" "ollama_base_url" "http://localhost:11434"
  let model ← text "EMBEDDING_MODEL" "embedding_model" "all-minilm"
  let connectTimeout ← number "CODEBASE_CONTEXT_CONNECT_TIMEOUT" "connect_timeout" 10
  let requestTimeout ← number "CODEBASE_CONTEXT_REQUEST_TIMEOUT" "request_timeout" 120
  let maxWorkers ← integer "CODEBASE_CONTEXT_MAX_WORKERS" "max_workers" 4
  let topK ← integer "CODEBASE_CONTEXT_TOP_K" "top_k" 5
  let minOccurrences ← integer "CODEBASE_CONTEXT_MIN_OCCURRENCES" "min_occurrences" 1
  let logDir ← text "CODEBASE_CONTEXT_LOG_DIR" "log_dir" ".cache/logs"
  let extensions ← list "CODEBASE_CONTEXT_EXTENSIONS" "code_extensions" defaultExtensions
  let ignoredDirs ← list "CODEBASE_CONTEXT_IGNORE_DIRS" "ignore_dirs" defaultIgnoredDirs
  let ignoredNames ← list "CODEBASE_CONTEXT_IGNORED_NAMES" "ignored_names" defaultIgnoredNames
  return {
    storePath, baseUrl, model, connectTimeout, requestTimeout, topK, minOccurrences, logDir
    maxWorkers := max 1 maxWorkers
    extensions := extensions.map normalExtension
    ignoredDirs, ignoredNames }

end Settings

end SourceAtlas
