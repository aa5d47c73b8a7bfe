import Bearer.Cache.Run
import Bearer.Path
import Bearer.Settings.Basic

/-! A builder collects what is set for a backend; the last value set for a thing counts. A transport that is given to
it is named by a value of some type, whatever the program keeps its transports by. -/

namespace Bearer

/-- What requests are sent over: a transport that was given, or a client of the backend's own. -/
inductive Transport (Given : Type) where
  | given (transport : Given)
  | client (timeout : Binary64) (closed : Bool)

/-- A backend: where its paths are rooted, and what its requests are signed with and sent over. -/
structure Backend (Given : Type) where
  root : Text
  credential : Credential
  tokenUrl : Text
  refreshMargin : Duration
  transport : Transport Given

/-- What has been set for a backend. -/
structure Builder (Given : Type) where
  root : Option Text := none
  credential : CredentialOptions := {}
  transport : Option Given := none
  tokenUrl : Text := Grant.defaultUrl
  refreshMargin : Duration := Duration.minute
  httpTimeout : Option Binary64 := none
  normalize : Text → Text := Path.normalize

/-- A thing that can be set, and its value. -/
inductive Choice (Given : Type) where
  | root (root : Text)
  | accessToken (token : Text)
  | refreshToken (token : Text)
  | clientId (id : Text)
  | clientSecret (secret : Text)
  | transport (transport : Given)
  | tokenUrl (url : Text)
  | refreshMargin (margin : Duration)
  | normalizer (normalize : Text → Text)

namespace Builder

variable {Given : Type}

/-- Sets a thing. -/
def set (b : Builder Given) : Choice Given → Builder Given
  | .root root => { b with root := some root }
  | .accessToken token => { b with credential.accessToken := some token }
  | .refreshToken token => { b with credential.refreshToken := some token }
  | .clientId id => { b with credential.clientId := some id }
  | .clientSecret secret => { b with credential.clientSecret := some secret }
  | .transport transport => { b with transport := some transport }
  | .tokenUrl tokenUrl => { b with tokenUrl }
  | .refreshMargin refreshMargin => { b with refreshMargin }
  | .normalizer normalize => { b with normalize }

/-- The builder of options in a mapping; other keys do not count. -/
def ofEntries (options : Entries Text) : Builder Given where
  root := options.get? "root"
  credential := CredentialOptions.ofEntries options

/-- The builder of settings, unless their margin is no duration. -/
def ofSettings? (s : Settings) : Option (Builder Given) :=
  (Duration.ofSeconds? s.refreshMargin).map fun margin =>
    { ofEntries s.options with
      tokenUrl := s.tokenUrl, refreshMargin := margin, httpTimeout := some s.httpTimeout }

/-- The description of a builder, which shows no secret. -/
def describe (b : Builder Given) : Text :=
  ("DropboxBuilder(root=" : Text) ++ Text.quoted? b.root ++ (")" : Text)

/-- The root that is normalized: the one that was set, or the empty one. -/
def givenRoot (b : Builder Given) : Text := b.root.getD []

end Builder

/-- What building works on: the builder, and the timeouts of the clients that were created. -/
structure Site (Given : Type) where
  builder : Builder Given
  clients : List Binary64 := []

namespace Site

variable {Given : Type}

/-- The transport of the backend. If none was given, a client of its own is created, with the timeout that was
set. -/
def connect : EStateM CredentialError (Site Given) (Transport Given) := do
  let builder := (← get).builder
  match builder.transport with
  | some transport => return .given transport
  | none =>
    let timeout := builder.httpTimeout.getD Settings.defaultTimeout
    modify fun site => { site with clients := site.clients ++ [timeout] }
    return .client timeout false

/-- Builds a backend: the root is normalized, the credential resolved, and only then a transport created. -/
def build : EStateM CredentialError (Site Given) (Backend Given) := do
  let builder := (← get).builder
  let root := builder.normalize builder.givenRoot
  match builder.credential.resolve with
  | .error e => throw e
  | .ok credential =>
    let transport ← connect
    return { root, credential, tokenUrl := builder.tokenUrl, refreshMargin := builder.refreshMargin, transport }

end Site

namespace Builder

variable {Given : Type}

/-- What building a backend comes to. -/
def build (b : Builder Given) : Except CredentialError (Backend Given) :=
  match Site.build { builder := b } with
  | .ok backend _ => .ok backend
  | .error e _ => .error e

end Builder

namespace Backend

variable {Given : Type}

def isRefreshable (b : Backend Given) : Bool := b.credential.isRefreshable

/-- The path that addresses `path` in the backend. -/
def buildPath (b : Backend Given) (path : Text) : Text := Path.under b.root path

/-- The backend after closing: a client of its own is closed for good. -/
def close (b : Backend Given) : Backend Given :=
  match b.transport with
  | .given _ => b
  | .client timeout _ => { b with transport := .client timeout true }

/-- The record that tells of a backend that was built. -/
def built (time : Instant) (b : Backend Given) : Log.Record where
  severity := Log.Level.debug.name
  message := "Dropbox backend built"
  time := time
  logger := "extradrop.backend"
  extra := [("extra", .mapping [("root", .text b.root), ("refreshable", .bool b.isRefreshable)])]

/-- The configuration of the backend's token cache. -/
def cache (b : Backend Given) : Cache.Config where
  source := match b.credential with
    | .fixed token => .fixed token
    | .refreshable key _ => .refreshable key
  url := b.tokenUrl
  margin := b.refreshMargin

/-- The token that the backend holds. -/
def held (b : Backend Given) : HeldToken :=
  match b.credential with
  | .fixed _ => {}
  | .refreshable _ held => held

/-- The backend with another token to hold. -/
def hold (held : HeldToken) (b : Backend Given) : Backend Given :=
  match b.credential with
  | .fixed _ => b
  | .refreshable key _ => { b with credential := .refreshable key held }

/-- The run of the token cache that serves one call at the instant `now`, with the replies that a
transport will give. -/
def serve (b : Backend Given) (now : Instant) (replies : List Reply) (call : Cache.Call)
    (nesting : Nat := Json.usualNesting) : Cache.State × Option Cache.Result :=
  Cache.State.callNow { b.cache with nesting } { clock := now, held := b.held, replies } call

/-- The backend after a run of its token cache. -/
def after (b : Backend Given) (run : Cache.State) : Backend Given := b.hold run.held

end Backend

end Bearer
