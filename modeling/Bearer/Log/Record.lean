import Bearer.Log.Datum
import Bearer.Log.Level

/-! A record has two written forms. The form for machines is a JSON object on one line: its members are those of the
record, then an exception if it has one, then the values passed with the message. -/

namespace Bearer.Log

/-- The place of the single frame of a traceback. -/
structure Frame where
  file : Text
  line : Int
  function : Text

/-- The classes of exceptions that records carry. A class that words the text it holds as it is can be
any other one, known by its names. -/
inductive ExceptionKind where
  | value
  | key
  | transport
  | other (name qualifiedName : Text)
  deriving DecidableEq

namespace ExceptionKind

def name : ExceptionKind → Text
  | value => "ValueError"
  | key => "KeyError"
  | transport => "TransportError"
  | other name _ => name

/-- The name with the module, which builtin classes lack. -/
def qualifiedName : ExceptionKind → Text
  | value => "ValueError"
  | key => "KeyError"
  | transport => "extradrop.exceptions.TransportError"
  | other _ qualifiedName => qualifiedName

/-- The wording of an exception that holds a text; a missing key is quoted. -/
def wording (kind : ExceptionKind) (held : Text) : Text :=
  match kind with
  | key => held.quoted
  | value | transport | other _ _ => held

end ExceptionKind

/-- The exception of a record. The class and the exception itself may each be missing. Its traceback
has a single frame, or else is known by its text. -/
structure Exception where
  declared : Option ExceptionKind
  raised : Option (ExceptionKind × Text)
  frame : Option Frame
  formatted : Option Text := none

namespace Exception

/-- The line that names an exception and its wording, if that is not empty. -/
def summary (e : Exception) : Text :=
  match e.raised with
  | none => "NoneType: None"
  | some (kind, held) =>
    let wording := kind.wording held
    if wording.isEmpty then kind.qualifiedName
    else kind.qualifiedName ++ (": " : Text) ++ wording

/-- The traceback of an exception that has one. -/
def traceback? (e : Exception) : Option Text :=
  match e.frame with
  | some frame =>
    some (("Traceback (most recent call last):\n  File \"" : Text) ++ frame.file ++ ("\", line " : Text)
      ++ Decimal.ofInt frame.line ++ (", in " : Text) ++ frame.function ++ ("\n" : Text)
      ++ e.summary ++ ("\n" : Text))
  | none => e.formatted

def optional : Option Text → Json
  | none => .null
  | some t => .string t

/-- The member that shows an exception. -/
def toJson (e : Exception) : Json :=
  .object [
    ("type", optional (e.declared.map (·.name))),
    ("value", optional (e.raised.map fun (kind, held) => kind.wording held)),
    ("traceback", optional e.traceback?)]

end Exception

/-- One entry of the log. `extra` holds the values bound to it; those passed with the message
stand there as one mapping under the name `extra`. -/
structure Record where
  severity : Text
  message : Text
  time : Timestamp
  logger : Text
  exception : Option Exception := none
  extra : Entries Datum := []

namespace Record

/-- The members that every record has. -/
def base (r : Record) : Entries Json := [
  ("severity", .string r.severity),
  ("message", .string r.message),
  ("time", .string r.time.iso),
  ("logger", .string r.logger)]

/-- The values of one binding as members: a mapping named `extra` stands for its entries, names
that begin with an underscore are left out. -/
def flatten (name : Text) (d : Datum) : List (Text × Json) :=
  match d with
  | .mapping entries =>
    if name = Text.ofString "extra" then Datum.toJsonMembers entries
    else if name.head? = some (.scalar '_') then []
    else [(name, d.toJson)]
  | d => if name.head? = some (.scalar '_') then [] else [(name, d.toJson)]

/-- The members of a record, in order. -/
def members (r : Record) : Entries Json :=
  let base := match r.exception with
    | none => r.base
    | some e => r.base.put "exception" e.toJson
  base.putAll (r.extra.flatMap fun (name, d) => flatten name d)

/-- The form for machines. -/
def line (r : Record) : Text := Json.compact (.object r.members)

/-- The form for readers, with a given form of the time: lines without their ends. -/
def console (clock : Text) (r : Record) : List Text :=
  let head := clock ++ (" | " : Text) ++ r.severity.padEnd 8 ++ (" | " : Text) ++ r.message
  Text.splitOn (.scalar '\n') head ++ match r.exception with
    | none => []
    | some e => Text.splitOn (.scalar '\n') (e.traceback?.getD e.summary)

end Record

end Bearer.Log
