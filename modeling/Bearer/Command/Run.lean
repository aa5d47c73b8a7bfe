import Bearer.Backend.Builder
import Bearer.Command.Usage
import Bearer.Http.Client
import Bearer.Log.Sink

/-! One run of the program: what it writes, in order, what it sends, which clients it creates and closes, and how it
ends. Errors that the user can mend end it with status 1 and a line on standard error, the user's wish to stop with
status 130; any other error leaves the program as it is. -/

namespace Bearer.Command

/-- Something that the program writes: a text, or a record of the log, on standard output if the
log is for machines and on standard error if it is for readers. -/
inductive Piece where
  | out (t : Text)
  | err (t : Text)
  | logged (production : Bool) (r : Log.Record)

/-- How the program ends. -/
inductive Ending where
  | exit (status : Nat)
  | raised (r : Report)

/-- What a run has done so far: what it wrote, what it sent, the timeouts of the clients that it created, and the
transports that it closed. -/
structure Deeds where
  pieces : List Piece := []
  exchanges : List Client.Exchange := []
  clients : List Binary64 := []
  closed : List (Transport Unit) := []

/-- A run of the program. -/
structure Transcript extends Deeds where
  ending : Ending

/-- How often a transport was closed. -/
def Transcript.closes (t : Transcript) : Nat := t.closed.length

/-- Where the program runs. -/
structure Place where
  now : Instant
  sources : Settings.Sources
  /-- What sending a request leads to. -/
  send : Request → Client.Exchange
  /-- What the client tells the log when it is created. -/
  opening : List Client.Line := []
  /-- What the client and its connection tell the log when the client is closed. -/
  closing : List Client.Line := []
  /-- Whether standard output refuses what is no UTF-8. -/
  strict : Bool := false
  /-- How many containers may be open at once in the body of an answer. -/
  nesting : Nat := Json.usualNesting
  wording : Settings.Wording := .plain

/-- What stops the program: issues with the settings, an error, or the user's wish. -/
inductive Failure where
  | invalid (issues : List Settings.Issue)
  | failed (r : Report)
  | interrupted

/-- A part of the program. -/
abbrev Program := EStateM Failure Deeds

/-- Writes some pieces. -/
def put (pieces : List Piece) : Program Unit := modify fun d => { d with pieces := d.pieces ++ pieces }

/-- Prints a line, unless standard output refuses it. -/
def say (place : Place) (line : Text) : Program Unit :=
  match place.strict, Utf8.encode line with
  | true, .error fault => throw (.failed (.foreign "UnicodeEncodeError" fault.message))
  | _, _ => put [.out (line ++ ("\n" : Text))]

/-- What a sink does with a record of a level. -/
def write (sink : Log.Sink) (level : Log.Level) (r : Log.Record) : List Piece :=
  if sink.accepts (.level level) then [.logged sink.production r] else []

/-- The log that settings ask for. -/
def sinkOf (s : Settings) : Log.Sink := ⟨s.isProduction, s.logLevel⟩

/-- The record of an entry that the client makes. -/
def clientRecord (now : Instant) (line : Client.Line) : Log.Record where
  severity := line.level.name
  message := line.message
  time := now
  logger := Log.standardOrigin

/-- What the log shows of entries that the client makes. -/
def writeLines (place : Place) (sink : Log.Sink) (lines : List Client.Line) : List Piece :=
  lines.flatMap fun line => write sink line.level (clientRecord place.now line)

/-- What the log shows of an event. -/
def writeEvent (place : Place) (sink : Log.Sink) : Cache.Event → List Piece
  | .note n => write sink n.level (n.record place.now)
  | .request r => writeLines place sink (place.send r).logged
  | .acquired _ | .arrived _ _ | .finished _ _ => []

/-- Looks at the settings: the kind of the credential and the root. -/
def check (place : Place) (s : Settings) : Program Unit := do
  match (CredentialOptions.ofEntries s.options).resolve with
  | .error e => throw (.failed e.report)
  | .ok credential =>
    let mode : Text := if credential.isRefreshable then "refreshable" else "fixed"
    say place (("Credential: " : Text) ++ mode)
    say place (("Root: " : Text) ++ Path.normalize (s.root.getD []))

/-- What the log shows of the client that was created for a backend, if none was given. -/
def opened (place : Place) (sink : Log.Sink) (b : Backend Unit) : List Piece :=
  match b.transport with
  | .given _ => []
  | .client _ _ => writeLines place sink place.opening

/-- Builds a backend, and tells the log of it. -/
def build (place : Place) (sink : Log.Sink) (builder : Builder Unit) : Program (Backend Unit) := do
  match Site.build { builder, clients := (← get).clients } with
  | .error e site =>
    modify fun d => { d with clients := site.clients }
    throw (.failed e.report)
  | .ok b site =>
    modify fun d => { d with clients := site.clients }
    put (opened place sink b ++ write sink .debug (b.built place.now))
    return b

/-- The request that a backend sends when it refreshes its token. -/
def refreshOf {Given : Type} (b : Backend Given) : Option Request :=
  match b.credential with
  | .fixed _ => none
  | .refreshable key _ => (Cache.refreshRequest b.tokenUrl key).toOption

/-- The token that a call obtains, or what stops the program. -/
def tokenOf : Option Cache.Result → Except Failure Text
  | some (.token t) => .ok t
  | some (.failed (.interrupted _)) => .error .interrupted
  | some (.failed e) => .error (.failed e.report)
  | some (.signed _) | some .cancelled | none => .error (.failed (.foreign "CancelledError" []))

/-- Asks a backend for a token. The answer tells when it expires. -/
def ask (place : Place) (sink : Log.Sink) (b : Backend Unit) : Program (Text × Option Instant) := do
  let replies := (refreshOf b).toList.map fun r => (place.send r).reply
  let (run, result) := b.serve place.now replies .token place.nesting
  put (run.trace.flatMap (writeEvent place sink))
  modify fun d => { d with exchanges := d.exchanges ++ run.requests.map place.send }
  match tokenOf result with
  | .ok token => return (token, (b.after run).held.expiresAt)
  | .error failure => throw failure

/-- A token as the program prints it. -/
def printed (asJson : Bool) (token : Text) (expiresAt : Option Instant) : Text :=
  if asJson then
    Json.print { indent := some 2 } 0 (.object [
      ("access_token", .string token),
      ("expires_at", match expiresAt with
        | some t => .string t.iso
        | none => .null)])
  else token

/-- Closes the transport of a backend. -/
def close (place : Place) (sink : Log.Sink) (b : Backend Unit) : Program Unit := do
  modify fun d => { d with closed := d.closed ++ [b.close.transport] }
  put (writeLines place sink place.closing)

/-- Prints a token of a backend that is good. The backend is closed however that ends. -/
def deliver (place : Place) (sink : Log.Sink) (asJson : Bool) (b : Backend Unit) : Program Unit := do
  try
    let (token, expiresAt) ← ask place sink b
    say place (printed asJson token expiresAt)
  finally
    close place sink b

/-- Builds a backend from settings and prints a token of it. -/
def token (place : Place) (s : Settings) (asJson : Bool) : Program Unit := do
  match (Builder.ofSettings? s : Option (Builder Unit)) with
  | none => throw (.failed .outOfRange)
  | some builder =>
    let b ← build place (sinkOf s) builder
    deliver place (sinkOf s) asJson b

/-- Carries out an order. -/
def obey (place : Place) (o : Order) : Program Unit :=
  match Settings.read place.sources with
  | .invalid issues => throw (.invalid issues)
  | .valid s =>
    match o with
    | .check => check place s
    | .token asJson => token place s asJson

/-- The line that complains of an error. -/
def complaint (message : Text) : Piece := .err (("Error: " : Text) ++ message ++ ("\n" : Text))

/-- How the program ends when something stops it: the library's own errors are for the user to mend. -/
def Failure.last (place : Place) : Failure → List Piece × Ending
  | invalid issues => ([complaint (Settings.Issue.describeAll place.wording issues)], .exit 1)
  | failed r =>
    match r.kind? with
    | some _ => ([complaint r.message], .exit 1)
    | none => ([], .raised r)
  | interrupted => ([.err "\nAborted\n"], .exit 130)

/-- The run that has come to its end. -/
def ended (place : Place) : EStateM.Result Failure Deeds Unit → Transcript
  | .ok _ d => { d with ending := .exit 0 }
  | .error failure d =>
    let (pieces, ending) := failure.last place
    { d with pieces := d.pieces ++ pieces, ending }

/-- The run that a program makes. -/
def transcript (place : Place) (p : Program Unit) : Transcript := ended place (p.run {})

/-- The run of a command line that stops the program. -/
def Stop.transcript (stop : Stop) : Transcript where
  pieces := [.out stop.output, .err stop.errors]
  ending := .exit stop.status

/-- Runs the program. -/
def run (place : Place) (arguments : List Text) : Transcript :=
  match order arguments with
  | .error stop => stop.transcript
  | .ok o => transcript place (obey place o)

/-- Runs the program where the file of variables, if there is one, has the given bytes. They are looked at once the
arguments are understood. -/
def start (place : Place) (file : Option Bytes) (arguments : List Text) : Transcript :=
  match order arguments, Utf8.decode (file.getD []) with
  | .ok _, .error fault => { ending := .raised (.foreign "UnicodeDecodeError" fault.message) }
  | _, text => run { place with sources.file := text.toOption } arguments

end Bearer.Command
