import SourceAtlas.Embedding.Body
import SourceAtlas.Json.Read
import SourceAtlas.Settings.Basic

/-!
# The embedding client

Asks a provider for the vector of a text: the request that is sent, and the vector or the failure
that its reply comes to.

Models `OllamaEmbedder`: `Endpoint.ofUrl` its constructor, `Endpoint.url` its `url`,
`Endpoint.vector` its `embed`. Sending a request is left to the HTTP library: an `Endpoint` tells
what is sent and takes the reply.
-/

namespace SourceAtlas

open Number

/-! ## Requests -/

/-- A place that answers embedding requests. -/
structure Endpoint where
  base : String
  model : String
  connectTimeout : Float
  readTimeout : Float

namespace Endpoint

/-- What stands before the last occurrence of a word in a text. -/
def beforeLast? (word : List Char) : List Char → Option (List Char)
  | [] => none
  | c :: cs =>
    match beforeLast? word cs with
    | some front => some (c :: front)
    | none => if word.isPrefixOf (c :: cs) then some [] else none

/-- The root of a provider, told by its root or by the address of one of its services. Slashes at
the end do not count. -/
def rootOf (url : String) : String :=
  let front := (beforeLast? "/api/".toList url.toList).getD url.toList
  String.ofList (front.reverse.dropWhile (· == '/')).reverse

/-- The endpoint at an address. -/
def ofUrl (url model : String) (connectTimeout readTimeout : Float) : Endpoint :=
  ⟨rootOf url, model, connectTimeout, readTimeout⟩

/-- The endpoint of the settings. -/
def ofSettings (s : Settings) : Endpoint :=
  ofUrl s.baseUrl s.model s.connectTimeout s.requestTimeout

/-- The address that requests go to. -/
def url (e : Endpoint) : String := e.base ++ "/api/embeddings"

/-- The body of the request for a text. Nothing in it is left to chance. -/
def payload (e : Endpoint) (text : String) : Value :=
  .map [(.text "model", .text e.model), (.text "prompt", .text text),
    (.text "options", .map [(.text "temperature", .int 0)])]

end Endpoint

/-! ## Replies -/

/-- What comes back for a request: a response, or a failure on the way. -/
inductive Reply where
  | response (status : Int) (reason : String) (body : List UInt8) (head : Head := [])
  | timedOut (text : String)
  | failed (text : String)
  | invalid (text : String)

/-- Why a reply has no usable vector. The last two are not told apart from faults of the program
by who asked. -/
inductive EmbedError where
  | timedOut (text : String)
  | failed (text : String)
  | malformed
  | notJson
  | noVector
  | notNumeric
  | degenerate
  | tooDeep
  | tooLarge
  deriving BEq, DecidableEq, Repr

namespace EmbedError

/-- Whether the failure is the provider's. -/
def isUnavailable : EmbedError → Bool
  | tooDeep | tooLarge => false
  | _ => true

def message : EmbedError → String
  | timedOut text => "Embedding request timed out: " ++ text
  | failed text => "Embedding request failed: " ++ text
  | malformed => "Embedding request failed"
  | notJson => "Embedding response is not JSON"
  | noVector => "Embedding response contained no vector"
  | notNumeric => "Embedding vector is not numeric"
  | degenerate => "Embedding vector is degenerate (zero or non-finite)"
  | tooDeep => "maximum recursion depth exceeded"
  | tooLarge => "int too large to convert to float"

end EmbedError

/-- The text of a failing status, if it is one. -/
def statusFailure? (url : String) (status : Int) (reason : String) : Option String :=
  let text (side : String) := s!"{status} {side} Error: {reason} for url: {url}"
  if 400 ≤ status && status < 500 then some (text "Client")
  else if 500 ≤ status && status < 600 then some (text "Server")
  else none

/-- What reading a reply depends on besides the reply: how deep its values may be nested, and the
text that its head and its body are taken for, if they are taken for one. -/
structure Reading where
  depth : Nat
  text? : Head → List UInt8 → Option String

namespace Reading

/-- How a reply is read when nothing else is known: with room for as many calls as is usual. -/
def standard : Reading := ⟨1000, fun head body => some (replyText head body)⟩

/-- The value that a head and a body hold. -/
def value (reading : Reading) (head : Head) (body : List UInt8) : Except EmbedError Value :=
  match reading.text? head body with
  | none => .error .notJson
  | some text =>
    (Json.readWithin reading.depth text).mapError fun
      | .malformed => .malformed
      | .tooManyDigits => .notJson
      | .tooDeep => .tooDeep

end Reading

/-- A number of a vector: a number, a truth value or a text that writes a number. -/
def vectorElement (v : Value) : Except EmbedError Float :=
  v.castFloat.mapError fun
    | .invalid | .wrongType => .notNumeric
    | .tooLarge => .tooLarge

def isFiniteFloat (x : Float) : Bool := !x.isNaN && !x.isInf

/-- The vector that a value holds: finite numbers, one of them not zero. -/
def vectorOf (data : Value) : Except EmbedError (List Float) :=
  match (data.get? "embedding").bind Value.asList? with
  | some (v :: vs) =>
    match (v :: vs).mapM vectorElement with
    | .error e => .error e
    | .ok xs =>
      if xs.all isFiniteFloat && xs.any (· != 0) then .ok xs else .error .degenerate
  | _ => .error .noVector

/-- The vector of a reply that is read in some way. -/
def Endpoint.vectorBy (e : Endpoint) (reading : Reading) : Reply → Except EmbedError (List Float)
  | .timedOut text => .error (.timedOut text)
  | .failed text => .error (.failed text)
  | .invalid _ => .error .notJson
  | .response status reason body head =>
    match statusFailure? e.url status reason with
    | some text => .error (.failed text)
    | none => (reading.value head body).bind vectorOf

/-- The vector of a reply. -/
def Endpoint.vector (e : Endpoint) (r : Reply) : Except EmbedError (List Float) :=
  e.vectorBy .standard r

end SourceAtlas
