import Bearer.Command.Run
import Bearer.Text.Utf8
import Std.Internal.UV.System
import Std.Time.DateTime.Timestamp

/-! The program as it is started: where it runs is read from the clock, the environment and the file `.env`, and what
a run writes is written. -/

namespace Bearer.CommandLine

/-- The instant now, or the beginning of 1970 if the clock shows none. -/
def now : IO Instant := do
  let stamp ← Std.Time.Timestamp.now
  let micros := stamp.toNanosecondsSinceUnixEpoch.val / 1000
  return (Instant.ofMicros? micros).getD .epoch

/-- The variables of the environment. -/
def environment : IO (Entries Text) := do
  let assigned ← Std.Internal.UV.System.osEnviron
  return assigned.toList.map fun (name, value) => (Text.ofString name, Text.ofString value)

/-- The bytes of the file of variables, if there is one. -/
def file? : IO (Option Bytes) := do
  try
    let bytes ← IO.FS.readBinFile ".env"
    return some bytes.toList
  catch _ => return none

/-- The fate of a request when no server can be reached. -/
def unreachable (r : Request) : Client.Exchange :=
  Client.exchange false r (.broken ⟨"ConnectError", "All connection attempts failed"⟩)

/-- A text as standard error takes it: a surrogate is written as its escape. -/
def characters (t : Text) : String :=
  String.ofList (t.flatMap fun
    | .scalar c => [c]
    | .surrogate offset => (Text.numberEscape (.surrogate offset)).filterMap fun
      | .scalar c => some c
      | .surrogate _ => none)

/-- The time of day of an instant, in whole seconds. -/
def clock (t : Timestamp) : Text := (t.display.drop 11).take 8

/-- Writes a piece where it belongs. What goes to standard output has no surrogates. -/
def emit : Command.Piece → IO Unit
  | .out t => IO.print (characters t)
  | .err t => IO.eprint (characters t)
  | .logged production r => do
    let d : Log.Delivery := ⟨production, r⟩
    IO.print (characters d.output)
    IO.eprint (characters (d.errors clock))

/-- Writes what a run wrote and gives its status. -/
def report (t : Command.Transcript) : IO UInt32 := do
  t.pieces.forM emit
  match t.ending with
  | .exit status => return status.toUInt32
  | .raised r =>
    IO.eprintln (characters r.message)
    return 1

end Bearer.CommandLine

open Bearer CommandLine in
/-- Runs the program with the words of the command line. -/
def main (arguments : List String) : IO UInt32 := do
  let place : Command.Place := {
    now := ← now
    sources := { environment := ← environment }
    send := unreachable
    strict := true }
  report (Command.start place (← file?) (arguments.map Text.ofString))
