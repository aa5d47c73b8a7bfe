import Bearer.Http.Message
import Bearer.Http.Status
import Bearer.Http.Url
import Bearer.Log.Level
import Bearer.Text.Base64
import Bearer.Text.Fault

/-! A transport that sends requests to a server. A failure of the client's own family is reported with the method and
address of the request and the failure as its cause; everything else goes through unchanged. -/

namespace Bearer.Client

/-- What becomes of a request, at the server and in the client. -/
inductive Service where
  | answer (r : Response)
  /-- A failure of the client's own family: of the connection, the protocol or the time. -/
  | broken (e : Foreign)
  /-- Anything else, which the client does not touch. -/
  | other (reply : Reply)

/-- Why a request is not sent. -/
inductive Refusal where
  | address (e : UrlError)
  /-- A field is not ASCII: the first run of code points that are not. -/
  | field (start length : Nat) (first : CodePoint)
  | closed

namespace Refusal

/-- A refusal as an error. -/
def error : Refusal → Foreign
  | address e => ⟨"InvalidURL", e.message⟩
  | field start length first =>
    ⟨"UnicodeEncodeError",
      ("'ascii' codec can't encode " : Text)
        ++ Text.faultPlace
            (("character '" : Text) ++ Text.numberEscape first ++ ("'" : Text)) "characters"
            start length
        ++ (": ordinal not in range(128)" : Text)⟩
  | closed => ⟨"RuntimeError", "Cannot send a request, as the client has been closed."⟩

end Refusal

def isAscii (c : CodePoint) : Bool := c.toNat < 128

/-- Refuses a text that is not ASCII. -/
def checkAscii (t : Text) : Except Refusal Unit :=
  match t.dropWhile isAscii with
  | [] => .ok ()
  | c :: rest =>
    .error (.field (t.takeWhile isAscii).length (1 + (rest.takeWhile (!isAscii ·)).length) c)

/-- Refuses fields that are not ASCII. -/
def checkFields : Headers → Except Refusal Unit
  | [] => .ok ()
  | (name, value) :: rest => do
    checkAscii name
    checkAscii value
    checkFields rest

/-- Fields under their names in lower case, the values of a repeated one joined with commas. -/
def joinFields (fields : Headers) : Headers :=
  fields.foldl (fun joined (name, value) =>
    let name := name.toLower
    match joined.get? name with
    | some held => joined.put name (held ++ (", " : Text) ++ value)
    | none => joined.put name value) []

/-- The fields with the length of the body, unless they tell it already. -/
def addLength (body : Bytes) (fields : Headers) : Headers :=
  if body.isEmpty || (fields.get? "content-length").isSome then fields
  else fields.put "content-length" (Decimal.ofNat body.length)

/-- The fields with a length of zero for a method that comes with a body, unless they tell of a
body already. -/
def addNoLength (method : Text) (fields : Headers) : Headers :=
  let expectsBody := [Text.ofString "POST", Text.ofString "PUT", Text.ofString "PATCH"].contains
    method
  if expectsBody && (fields.get? "content-length").isNone
      && (fields.get? "transfer-encoding").isNone then
    fields.put "content-length" ("0" : Text)
  else fields

/-- The fields with the authorization of the user in the address. -/
def addUser (u : Url) (fields : Headers) : Headers :=
  if u.userName.isEmpty && u.password.isEmpty then fields
  else
    let pair := u.userName ++ [.scalar ':'] ++ u.password
    fields.put "authorization"
      (("Basic " : Text) ++ Base64.encode ((Utf8.encode pair).toOption.getD []))

/-- The address that a request goes to and the request as it reaches the server. -/
def prepare (r : Request) : Except Refusal (Url × Request) := do
  let url := (← (Url.read r.url).mapError .address).target
  checkFields r.headers
  let method := r.method.toUpper
  return (url, {
    method
    url := url.write
    headers := addUser url (addNoLength method (addLength r.body (joinFields r.headers)))
    body := r.body })

/-- The response as the client presents it: its fields as a mapping, with the length of the body. -/
def receive (r : Response) : Response where
  status := r.status
  headers := addLength r.body (joinFields r.headers)
  body := r.body

/-- What is wrong with the address that a response redirects to. -/
def redirectFault? (r : Response) : Option Foreign :=
  match (receive r).headers.get? "location" with
  | some location =>
    if Status.isRedirect r.status then
      match Url.read location with
      | .ok _ => none
      | .error e => some ⟨"RemoteProtocolError",
          ("Invalid URL in location header: " : Text) ++ e.message ++ ("." : Text)⟩
    else none
  | none => none

/-- An entry that the client makes in the log. -/
structure Line where
  level : Log.Level
  message : Text

/-- The entry that tells of an answer. -/
def answered (sent : Request) (r : Response) : Line where
  level := .info
  message := ("HTTP Request: " : Text) ++ sent.method ++ (" " : Text) ++ sent.url ++ (" \"HTTP/1.1 " : Text)
    ++ Decimal.ofInt r.status ++ (" " : Text) ++ Status.phrase r.status ++ ("\"" : Text)

/-- What the client makes of a request: what reached the server, what the log is told, and what it
comes back with. -/
structure Attempt where
  sent : Option Request := none
  logged : List Line := []
  result : Service

/-- The attempt over a request that has reached the server. An answer to a request without a scheme
can not be placed by the client's store of cookies. -/
def respond (url : Url) (sent : Request) : Service → Attempt
  | .broken e => { sent := some sent, result := .broken e }
  | .other reply => { sent := some sent, result := .other reply }
  | .answer response =>
    match checkFields response.headers with
    | .error why => { sent := some sent, result := .other (.raised why.error) }
    | .ok () =>
      if url.scheme.isEmpty then
        { sent := some sent
          result := .other (.raised
            ⟨"ValueError", ("unknown url type: " : Text) ++ sent.url.quoted⟩) }
      else
        { sent := some sent
          logged := [answered sent response]
          result := match redirectFault? response with
            | some e => .broken e
            | none => .answer (receive response) }

/-- The attempt to send a request, by a client that is closed or not. -/
def attempt (closed : Bool) (r : Request) (server : Service) : Attempt :=
  match prepare r with
  | .error why => { result := .other (.raised why.error) }
  | .ok (url, sent) =>
    if closed then { result := .other (.raised Refusal.closed.error) } else respond url sent server

/-- The failure of a request, as the transport reports it. -/
def failure (r : Request) (e : Foreign) : TransportError where
  message := r.method ++ (" " : Text) ++ r.url ++ (" failed: " : Text) ++ e.message
  cause := some e

/-- What the transport makes of what the client comes back with. -/
def handOn (r : Request) : Service → Reply
  | .answer response =>
    .response { status := response.status, headers := response.headers, body := response.body }
  | .broken e => .failed (failure r e)
  | .other reply => reply

/-- An exchange: what reached the server, what the client and the connection below it tell the log, and the reply. -/
structure Exchange where
  sent : Option Request := none
  logged : List Line := []
  reply : Reply

/-- The exchange that sending a request leads to, with a client that is closed or not, over a connection that tells
the log nothing. -/
def exchange (closed : Bool) (r : Request) (server : Service) : Exchange :=
  let attempt := attempt closed r server
  { sent := attempt.sent, logged := attempt.logged, reply := handOn r attempt.result }

end Bearer.Client
