import Bearer.Credential
import Bearer.Grant
import Bearer.Http.Form
import Bearer.Log.Record
import Bearer.Secret

/-! One round trip to the token endpoint: the request that it sends, and what an answer does to the held token. An
answer is either a grant that is stored, or leaves the waiting caller with an error. -/

namespace Bearer.Cache

/-- The response of the token endpoint is of no use: it grants no token, or the transport itself
says so. -/
inductive Malformed where
  | grant (e : GrantError)
  | reported (message : Text)
  deriving DecidableEq

def Malformed.message : Malformed → Text
  | grant e => e.message
  | reported message => message

/-- Why a refresh failed, as the error of the waiting caller tells. -/
inductive RefreshCause where
  | transport (e : TransportError)
  | endpoint (status : Int) (body : Text)
  | malformed (why : Malformed)
  deriving DecidableEq

namespace RefreshCause

def report : RefreshCause → Report
  | transport e => e.report
  | endpoint status body => .tokenEndpoint status body
  | malformed why => .plain .malformedTokenResponse why.message

/-- The wording of a cause. -/
def message (c : RefreshCause) : Text := c.report.message

end RefreshCause

/-- Why a call fails. -/
inductive CallError where
  | refreshFailed (cause : RefreshCause)
  /-- A time or duration left its bounds. -/
  | outOfRange
  /-- The credential can not be written as UTF-8. -/
  | notEncodable (fault : EncodeFault)
  /-- The body of an answer opens a container too many. -/
  | tooDeep (container : Json.Container)
  /-- The transport did not keep its contract. -/
  | unauthorized (message : Text)
  | foreign (e : Foreign)
  /-- The user wishes to stop. -/
  | interrupted (message : Text)
  deriving DecidableEq

namespace CallError

def report : CallError → Report
  | refreshFailed cause =>
    .refreshFailed (("Failed to refresh access token: " : Text) ++ cause.message)
      (some cause.report) true
  | outOfRange => .outOfRange
  | notEncodable fault => .foreign "UnicodeEncodeError" fault.message
  | tooDeep container => (Refusal.tooDeep container).report
  | unauthorized message => .plain .authentication message
  | foreign e => .foreign e.kind e.message
  | interrupted message => .foreign "KeyboardInterrupt" message

end CallError

/-- How a round trip ends. -/
inductive Outcome where
  | token (t : Text)
  | failed (e : CallError)
  | cancelled
  deriving DecidableEq

/-- What the cache tells the log. -/
inductive Note where
  | cached (expiresAt : Option Instant)
  | started (clientId : Text)
  | failed (clientId error : Text)
  | shortLived (seconds : Int) (margin : Duration)
  | refreshed (masked : Text) (expiresAt : Instant)
  deriving DecidableEq

namespace Note

def level : Note → Log.Level
  | cached _ => .debug
  | started _ | refreshed _ _ => .info
  | failed _ _ | shortLived _ _ => .warning

def message : Note → Text
  | cached _ => "Using cached Dropbox access token"
  | started _ => "Refreshing Dropbox access token"
  | failed _ _ => "Dropbox token refresh failed"
  | shortLived _ _ => "Dropbox access token lifetime is within the refresh margin"
  | refreshed _ _ => "Dropbox access token refreshed"

/-- The values passed with the message. -/
def extra : Note → Entries Log.Datum
  | cached expiresAt => [("expires_at", match expiresAt with
      | some t => .instant t
      | none => .null)]
  | started clientId => [("client_id", .text clientId)]
  | failed clientId error => [("client_id", .text clientId), ("error", .text error)]
  | shortLived seconds margin =>
    [("expires_in", .int seconds),
      ("refresh_margin",
        .float (Binary64.ofRatio (margin.micros < 0) margin.micros.natAbs 1000000))]
  | refreshed masked expiresAt =>
    [("access_token", .text masked), ("expires_at", .text expiresAt.iso)]

/-- The record of a note. -/
def record (time : Instant) (n : Note) : Log.Record where
  severity := n.level.name
  message := n.message
  time := time
  logger := "extradrop.cache"
  extra := [("extra", .mapping n.extra)]

end Note

/-- The request that exchanges a refresh token for an access token. -/
def refreshRequest (url : Text) (key : RefreshKey) : Except EncodeFault Request := do
  let body ← Form.encode [
    ("grant_type", "refresh_token"),
    ("refresh_token", key.refreshToken),
    ("client_id", key.clientId),
    ("client_secret", key.clientSecret)]
  return {
    method := "POST"
    url
    headers := [("Content-Type", "application/x-www-form-urlencoded"),
      ("Accept", "application/json")]
    body }

/-- What an answer does: how the round trip ends, the token held from then on, and the notes. -/
structure Settlement where
  outcome : Outcome
  held : HeldToken
  notes : List Note

/-- A refresh that fails with a cause of its own leaves the held token and a warning. -/
def refuse (key : RefreshKey) (held : HeldToken) (cause : RefreshCause) : Settlement :=
  ⟨.failed (.refreshFailed cause), held, [.failed key.clientId cause.message]⟩

/-- The note that a lifetime calls for. -/
def lifetimeNotes (margin lifetime : Duration) (seconds : Int) : List Note :=
  if lifetime.micros ≤ margin.micros then [.shortLived seconds margin] else []

/-- Stores a grant at the instant `now`. -/
def store (margin : Duration) (now : Instant) (held : HeldToken) (grant : Grant) : Settlement :=
  match Duration.ofSeconds? grant.seconds with
  | none => ⟨.failed .outOfRange, held, []⟩
  | some lifetime =>
    let notes := lifetimeNotes margin lifetime grant.seconds
    match now.add? lifetime with
    | none => ⟨.failed .outOfRange, { held with token := some grant.token }, notes⟩
    | some expiresAt =>
      ⟨.token grant.token, ⟨some grant.token, some expiresAt⟩,
        notes ++ [.refreshed (Secret.mask Secret.logVisible grant.token) expiresAt]⟩

/-- What a reply does at the instant `now`, where at most `nesting` containers may be open at once in
its body. -/
def settlement (nesting : Nat) (margin : Duration) (key : RefreshKey) (now : Instant)
    (held : HeldToken) : Reply → Settlement
  | .response r =>
    if r.isSuccess then
      match Grant.read r.body nesting with
      | .ok grant => store margin now held grant
      | .error (.malformed e) => refuse key held (.malformed (.grant e))
      | .error (.tooDeep container) => ⟨.failed (.tooDeep container), held, []⟩
    else refuse key held (.endpoint r.status r.text)
  | .failed e => refuse key held (.transport e)
  | .malformed message => refuse key held (.malformed (.reported message))
  | .unauthorized message => ⟨.failed (.unauthorized message), held, []⟩
  | .raised e => ⟨.failed (.foreign e), held, []⟩
  | .interrupted message => ⟨.failed (.interrupted message), held, []⟩
  | .cancelled => ⟨.cancelled, held, []⟩

end Bearer.Cache
