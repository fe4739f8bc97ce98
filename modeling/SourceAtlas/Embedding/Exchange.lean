import SourceAtlas.Embedding.Client
import SourceAtlas.Json.Write

/-!
# Exchanges with a provider

The bytes of an embedding request as a message of plain HTTP, and the reply that the bytes of an
answer come to. The message is of the version that ends a connection with its answer.

Stands for the request that `OllamaEmbedder.embed` sends through the HTTP library. Connections,
redirections and timeouts are left out.
-/

namespace SourceAtlas

open Text

/-! ## Addresses -/

/-- Where a message goes: a host, the number of the service on it, and a path. -/
structure Address where
  host : String
  service : Nat
  path : String
  deriving BEq, DecidableEq, Repr

namespace Address

/-- The number of the service where an address gives none. -/
def defaultService : Nat := 80

/-- The address that a URL names. An encrypted connection is none. -/
def ofUrl? (url : String) : Option Address := do
  let rest ← "http://".toList.isPrefixOf? url.toList
  let authority := rest.takeWhile (· != '/')
  let host := authority.takeWhile (· != ':')
  let service ← match authority.dropWhile (· != ':') with
    | [] => some defaultService
    | _ :: digits => (String.ofList digits).toNat?
  guard (!host.isEmpty && service < 0x10000)
  return ⟨String.ofList host, service, String.ofList (rest.dropWhile (· != '/'))⟩

end Address

/-! ## Messages -/

def lineEnd : String := "\r\n"

/-- The message that brings a JSON text to an address. -/
def Address.message (a : Address) (body : String) : List UInt8 :=
  let content := Utf8.encode body.toList
  let head := ["POST " ++ a.path ++ " HTTP/1.0", "Host: " ++ a.host,
    "Content-Type: application/json", s!"Content-Length: {content.length}", "", ""]
  Utf8.encode (lineEnd.intercalate head).toList ++ content

/-- The message that asks an endpoint for the vector of a text, and where it goes. -/
def Endpoint.message? (e : Endpoint) (text : String) : Option (Address × List UInt8) :=
  (Address.ofUrl? e.url).map fun a => (a, a.message (Json.write (e.payload text)))

/-! ## Answers -/

/-- What stands before a mark and what behind it. -/
def cutAtMark (mark : List UInt8) : List UInt8 → Option (List UInt8 × List UInt8)
  | [] => none
  | b :: bs =>
    match mark.isPrefixOf? (b :: bs) with
    | some rest => some ([], rest)
    | none => (cutAtMark mark bs).map fun (front, rest) => (b :: front, rest)

/-- The first word of a line, and what follows the blank behind it. -/
def cutWord (line : List Char) : List Char × List Char :=
  (line.takeWhile (· != ' '), (line.dropWhile (· != ' ')).drop 1)

/-- The field that a line of a head holds: its name and what it says. -/
def headField (line : String) : String × String :=
  let name := line.toList.takeWhile (· != ':')
  let said := (line.toList.drop (name.length + 1)).dropWhile (· == ' ')
  (String.ofList name, String.ofList said)

/-- The reply that the bytes of an answer come to: a head, whose first line tells the status and
whose other lines are fields, and a body. -/
def Reply.ofBytes (bytes : List UInt8) : Reply :=
  let answer := do
    let (head, body) ← cutAtMark (Utf8.encode (lineEnd ++ lineEnd).toList) bytes
    let lines := (String.ofList (Utf8.decode head)).splitOn lineEnd
    let (version, rest) := cutWord (lines.headD "").toList
    let (status, reason) := cutWord rest
    guard ("HTTP/".toList.isPrefixOf version)
    return Reply.response (← (String.ofList status).toNat?) (String.ofList reason) body
      ((lines.drop 1).map headField)
  answer.getD (.failed "the answer is no HTTP message")

end SourceAtlas
