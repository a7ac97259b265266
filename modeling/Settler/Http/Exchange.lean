import Settler.Http.Url
import Settler.Json.Parser
import Settler.Text.Encoding

/-!
Exchanges with a far side over HTTP: what is asked, what comes back, and what the HTTP library makes
of it.

The library is not a part of the daemon: it reads addresses, and hands a response over or fails at
it. What the daemon does is a function of the library that it is given.
-/

namespace Settler.Http

open Settler.Text

/-- A request with a JSON body. -/
structure Request where
  method : String
  url : Url
  accept : String
  body : Json
  deriving Repr

/-- A request that posts JSON and asks for JSON. -/
def Request.post (url : Url) (body : Json) : Request := ⟨"POST", url, "application/json", body⟩

/-- A response, as the far side sends it. -/
structure Response where
  status : Nat
  headers : List (String × String) := []
  body : List UInt8 := []
  deriving DecidableEq, Repr

/-- The JSON value that bytes stand for, if they stand for one. -/
def decoded? (content : List UInt8) : Option Json :=
  ((Encoding.sniff content).passing? content).bind Json.parse?

/-- A response, as the library hands it over. -/
structure Received where
  status : Nat
  /-- The bytes of the body, without any content coding. -/
  content : List UInt8
  /-- The body as text, in the character set that the response names; reading it can fail. -/
  text : Except Fault Str
  /-- What the library says of the response if its status is not one of success. -/
  refusal : Str

/-- The body as JSON, if it is. -/
def Received.json? (r : Received) : Option Json := decoded? r.content

/-- An HTTP library. -/
structure Library where
  /-- Reads the address that the places of a service are below. -/
  base : String → Except Fault Url
  /-- Reads the address that a message is posted to. -/
  address : String → Except Fault Url
  /-- Hands over the response to a request, or fails at it. -/
  receive : Request → Response → Except Fault Received

end Settler.Http
