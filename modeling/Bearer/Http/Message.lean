import Bearer.Json.Document
import Bearer.Report

/-! Requests and responses as a transport exchanges them, with raw bodies. -/

namespace Bearer

/-- Header fields, in order. -/
abbrev Headers := Entries Text

/-- A request. -/
structure Request where
  method : Text
  url : Text
  headers : Headers
  body : Bytes
  deriving DecidableEq

/-- A response. -/
structure Response where
  status : Int
  headers : Headers := []
  body : Bytes := []

namespace Response

/-- Whether the status is one of 200 to 299. -/
def isSuccess (r : Response) : Bool := 200 ≤ r.status && r.status < 300

/-- The body as text, with U+FFFD in the place of what is no UTF-8. -/
def text (r : Response) : Text := Utf8.decodeLossy r.body

/-- The body as a JSON document. -/
def json (r : Response) (nesting : Nat := Json.usualNesting) : Except Json.DocumentError Json :=
  Json.ofBytes r.body nesting

end Response

/-- An error that the library passes on as it is. -/
structure Foreign where
  kind : Text
  message : Text
  deriving DecidableEq

/-- A request that was not completed. -/
structure TransportError where
  message : Text
  cause : Option Foreign := none
  deriving DecidableEq

namespace TransportError

def report (e : TransportError) : Report :=
  .transport e.message (e.cause.map fun c => .foreign c.kind c.message)

end TransportError

/-- What becomes of a request that a transport was given. A transport that keeps its contract
answers or fails; the other cases are those of one that does not: it raises an error of the
library, one that the library does not know, or the user's wish to stop, or it is cancelled. -/
inductive Reply where
  | response (r : Response)
  | failed (e : TransportError)
  | malformed (message : Text)
  | unauthorized (message : Text)
  | raised (e : Foreign)
  | interrupted (message : Text)
  | cancelled

end Bearer
