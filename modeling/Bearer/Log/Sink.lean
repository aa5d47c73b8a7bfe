import Bearer.Log.Braces
import Bearer.Log.Loggers
import Bearer.Log.Record
import Bearer.Report

/-! Configuring the log puts one sink in the place of all that were there, for machines or for readers, with one
threshold. Entries reach it on two routes: directly, or through a standard logger. -/

namespace Bearer.Log

/-- Why the log is not configured. -/
inductive ConfigureError where
  /-- No level has the name. -/
  | unknownLevel (name : Text)
  /-- The level is one that the standard loggers do not know. -/
  | notStandard (name : Text)

namespace ConfigureError

def message : ConfigureError → Text
  | unknownLevel name => ("Level '" : Text) ++ name ++ ("' does not exist" : Text)
  | notStandard name => ("Unknown level: " : Text) ++ name.quoted

def report (e : ConfigureError) : Report := .foreign "ValueError" e.message

end ConfigureError

/-- An installed sink. -/
structure Sink where
  /-- Whether the sink is the one for machines. -/
  production : Bool
  threshold : Level

namespace Sink

/-- The sink of a configuration. -/
def configure (production : Bool) (level : Text) : Except ConfigureError Sink :=
  match Level.ofName? level with
  | none => .error (.unknownLevel level)
  | some l => if l.isStandard then .ok ⟨production, l⟩ else .error (.notStandard level)

/-- Whether a severity is at least the threshold. -/
def accepts (sink : Sink) (s : Severity) : Bool := sink.threshold.number ≤ s.rank

end Sink

/-- An entry on its way to the sink. -/
inductive Entry where
  /-- An entry made directly, with the level by name, and values passed with the message. -/
  | named (level : Text) (message : Text) (extra : Option (Entries Datum))
  /-- An entry made directly, with the level by number. -/
  | numbered (level : Int) (message : Text) (extra : Option (Entries Datum))
  /-- An entry made through a standard logger, with the arguments of its message and perhaps the
  text of an exception. -/
  | standard (logger : Text) (level : Int) (message : Text) (arguments : List Datum)
      (exception : Option Text)

/-- Why an entry can not be made. -/
inductive EntryError where
  | unknownLevel (name : Text)
  | negativeLevel (n : Int)
  | template (e : TemplateError)
  | braces (e : BraceError)

namespace EntryError

def report : EntryError → Report
  | unknownLevel name => .foreign "ValueError" (ConfigureError.unknownLevel name).message
  | negativeLevel n => .foreign "ValueError"
      (("Invalid level value, it should be a positive integer, not: " : Text) ++ Decimal.ofInt n)
  | template e => .foreign e.kind e.message
  | braces e => .foreign e.kind e.message

end EntryError

/-- The severity that a standard level is shown with. -/
def standardSeverity (n : Int) : Severity :=
  match Level.ofStandardNumber? n with
  | some l => .level l
  | none => .number n.toNat

/-- The message of a direct entry. Values passed with it make a template of it. -/
def directMessage (message : Text) : Option (Entries Datum) → Except EntryError Text
  | none => .ok message
  | some extra => (Braces.message [("extra", .mapping extra)] message).mapError .braces

/-- The name under which entries of standard loggers are recorded. -/
def standardOrigin : Text := "logging"

/-- An entry, when it is made and by which module. -/
structure Emission where
  time : Timestamp
  origin : Text
  entry : Entry

/-- What a sink writes: a record in the form of the sink. -/
structure Delivery where
  production : Bool
  record : Record

namespace Delivery

/-- What is written to standard output. -/
def output (d : Delivery) : Text := if d.production then d.record.line ++ ("\n" : Text) else []

/-- What is written to standard error, with a given form of times. -/
def errors (clock : Timestamp → Text) (d : Delivery) : Text :=
  if d.production then []
  else (d.record.console (clock d.record.time)).flatMap fun (line : Text) => line ++ ("\n" : Text)

end Delivery

/-- The log: its sinks, whether it is deaf to the library's own modules, and the standard loggers. -/
structure Routes where
  sinks : List Sink := []
  deaf : Bool := true
  loggers : Loggers := []

/-- The loggers of the HTTP client. -/
def clientLoggers : List Text := ["httpx", "httpcore"]

/-- Whether a module is one of the library's own. -/
def isOwnModule (origin : Text) : Bool := origin = "extradrop" || (Text.ofString "extradrop.").isPrefixOf origin

namespace Routes

/-- Sets a level for loggers and lets each hand its entries on once. The level may be one that the
standard loggers do not know; then the first of them refuses it. -/
def listen (level : Level) : List Text → Loggers → Loggers × Option ConfigureError
  | [], ls => (ls, none)
  | name :: names, ls =>
    if level.isStandard then listen level names (ls.put name ⟨some level.number, 1⟩)
    else (ls.touch name, some (.notStandard level.name))

/-- Configures the log. What was done before an error remains. -/
def configure (production : Bool) (level : Text) (r : Routes) : Routes × Option ConfigureError :=
  match Level.ofName? level with
  | none => ({ r with sinks := [] }, some (.unknownLevel level))
  | some l =>
    let (loggers, error) := listen l clientLoggers r.loggers
    ({ sinks := [⟨production, l⟩], deaf := false, loggers }, error)

/-- Whether direct entries of a module are listened to. -/
def hears (origin : Text) (r : Routes) : Bool := !r.sinks.isEmpty && !(r.deaf && isOwnModule origin)

/-- What the sinks write of a record. -/
def write (severity : Severity) (record : Record) (r : Routes) : List Delivery :=
  (r.sinks.filter (·.accepts severity)).map fun sink => ⟨sink.production, record⟩

/-- What becomes of a direct entry that is listened to. -/
def direct (severity : Severity) (message : Text) (extra : Option (Entries Datum)) (time : Timestamp)
    (origin : Text) (r : Routes) : Except EntryError (List Delivery) :=
  if r.sinks.any (·.accepts severity) then do
    let message ← directMessage message extra
    return r.write severity {
      severity := severity.label, message, time, logger := origin,
      extra := match extra with
        | none => []
        | some e => [("extra", .mapping e)] }
  else .ok []

/-- What becomes of an entry of a standard logger: every handler that it is given to hands it on. -/
def standard (name : Text) (level : Int) (message : Text) (arguments : List Datum)
    (exception : Option Text) (time : Timestamp) (r : Routes) : Except EntryError (List Delivery) :=
  if level < r.loggers.threshold name ∨ r.loggers.handlers name = 0 then .ok []
  else do
    let message ← (Template.percent arguments message).mapError .template
    let record : Record := {
      severity := (standardSeverity level).label, message, time, logger := standardOrigin,
      exception := exception.map fun held => ⟨some .value, some (.value, held), none, none⟩ }
    return (List.replicate (r.loggers.handlers name) (r.write (standardSeverity level) record)).flatten

/-- What is written of an entry. Direct entries carry the name of the module that makes them. -/
def emit (e : Emission) (r : Routes) : Except EntryError (List Delivery) :=
  match e.entry with
  | .named level message extra =>
    if r.hears e.origin then
      match Level.ofName? level with
      | none => .error (.unknownLevel level)
      | some l => r.direct (.level l) message extra e.time e.origin
    else .ok []
  | .numbered level message extra =>
    if r.hears e.origin then
      if level < 0 then .error (.negativeLevel level)
      else r.direct (.number level.toNat) message extra e.time e.origin
    else .ok []
  | .standard name level message arguments exception =>
    r.standard name level message arguments exception e.time

/-- The log when an entry is made: the logger that it is made through is there. -/
def meet (e : Entry) (r : Routes) : Routes :=
  match e with
  | .standard name _ _ _ _ => { r with loggers := r.loggers.touch name }
  | .named _ _ _ | .numbered _ _ _ => r

/-- What is written of entries, up to the first one that can not be made. -/
def emitAll : List Emission → Routes → List Delivery × Option EntryError
  | [], _ => ([], none)
  | e :: rest, r =>
    let r := r.meet e.entry
    match r.emit e with
    | .error why => ([], some why)
    | .ok ds =>
      let (more, why) := emitAll rest r
      (ds ++ more, why)

end Routes

/-- The log with one sink. -/
def Sink.routes (sink : Sink) : Routes :=
  (({} : Routes).configure sink.production sink.threshold.name).1

/-- The records that a list of entries of a module leaves, up to the first entry that can not be
made. -/
def Sink.records (sink : Sink) (time : Timestamp) (origin : Text) (entries : List Entry) :
    List Record × Option EntryError :=
  let (ds, why) := sink.routes.emitAll (entries.map fun entry => ⟨time, origin, entry⟩)
  (ds.map (·.record), why)

end Bearer.Log
