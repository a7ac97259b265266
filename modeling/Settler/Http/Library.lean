import Settler.Http.Exchange
import Settler.Http.Status

/-!
An HTTP library.

It knows the address forms, the redirecting statuses and the Unicode character sets. What it has to
look up is given: hosts that are not ASCII, other character sets, and content codings.
-/

namespace Settler.Http

open Settler.Text

namespace Response

/-- The values of a header, in order; case does not count in its name. -/
def values (r : Response) (name : String) : List String :=
  (r.headers.filter fun h => h.1.map Char.toLower = name).map (·.2)

/-- The value of a header; those of a repeated one are joined. -/
def header? (r : Response) (name : String) : Option String :=
  match r.values name with
  | [] => none
  | vs => some (", ".intercalate vs)

/-- A parameter's value without its quotes. -/
def unquoted (s : List Char) : List Char :=
  if s.head? = some '"' && s.getLast? = some '"' && 2 ≤ s.length then (s.drop 1).dropLast else s

/-- The character set that the content type names. -/
def charset? (r : Response) : Option String := do
  let value ← r.header? "content-type"
  ((splitAt ';' value.toList).drop 1).findSome? fun parameter => do
    let (name, value) ← cut? '=' parameter
    if String.ofList ((trim name).map Char.toLower) = "charset" then
      some (String.ofList (unquoted (trim value)))
    else none

/-- Where the response sends the client, if it does. -/
def location? (r : Response) : Option String :=
  if redirecting.contains r.status then r.header? "location" else none

end Response

namespace Library

/-- What a library looks up. -/
structure Lookups where
  /-- The ASCII name of a host, if it has one. -/
  ascii? : String → Option String := fun _ => none
  /-- What is wrong with a host that is an ASCII name for another one, if something is. -/
  misnamed? : String → Option Fault := fun _ => none
  /-- Reads bytes in the character set of a name, if there is one of that name. -/
  charset? : String → Option (List UInt8 → Except Fault Str) := fun name =>
    (Encoding.ofName? name).map fun e bytes => .ok ⟨(e.lossy bytes).map .char⟩
  /-- Undoes content codings. -/
  uncoded : List String → List UInt8 → Except Fault (List UInt8) := fun _ bytes => .ok bytes

/-- The start of an ASCII name that stands for another one. -/
def namePrefix : String := "xn--"

namespace Lookups

variable (l : Lookups)

/-- Reads an address. -/
def parse (text : String) : Except Fault Url := (Url.parse l.ascii? text).mapError .invalidAddress

/-- The host of an address can be read as the one it stands for. -/
def checkHost (u : Url) : Except Fault Unit :=
  if namePrefix.toList.isPrefixOf u.host.toList then
    match l.misnamed? u.host with
    | some f => .error f
    | none => .ok ()
  else .ok ()

/-- Finds the place that a response sends the client to, from the place that was asked. A text that is no
address breaks the exchange; any other place that cannot be found is an error. -/
def follow (asked : Url) (text : String) : Except Fault Unit := do
  let place ← (Url.parse l.ascii? text).mapError fun (problem : String) =>
    .transport "RemoteProtocolError" ("Invalid URL in location header: " ++ problem ++ ".")
  if place.scheme != "" then l.checkHost place
  if !place.admitsHost then
    l.checkHost asked
    throw (.invalidAddress Url.needsAbsolutePath)
  if place.scheme = "" && Url.lengthLimit < (asked.seen place).text.length then
    throw (.invalidAddress "URL too long")
  l.checkHost place
  l.checkHost asked

/-- Finds the place that a response sends the client to, if it does. -/
def locate (asked : Url) (r : Response) : Except Fault Unit :=
  match r.location? with
  | some text => l.follow asked text
  | none => .ok ()

/-- A response with its content. Its text is UTF-8, unless it names another character set that there is. -/
def handed (request : Request) (r : Response) (content : List UInt8) : Received where
  status := r.status
  content
  text := match r.charset?.bind l.charset? with
    | some read => read content
    | none => .ok ⟨(Encoding.utf8.lossy content).map .char⟩
  refusal := refusalText r.status request.url.text r.location?

/-- Hands a response over. Where it sends the client is found, but the client does not go there. -/
def receive (request : Request) (r : Response) : Except Fault Received := do
  l.locate request.url r
  let content ← l.uncoded (r.values "content-encoding") r.body
  return l.handed request r content

end Lookups

/-- A library with what it looks up. -/
def standard (l : Lookups) : Library where
  base := l.parse
  address text := (l.parse text).map Url.standing
  receive := l.receive

end Library

end Settler.Http
