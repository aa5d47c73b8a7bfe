import Bearer.Entries
import Bearer.Log.Level

/-! Standard loggers are known by their names. A logger stands below the loggers whose names, followed by a point, its
own name begins with. -/

namespace Bearer.Log

/-- What is set for a standard logger. -/
structure Logger where
  /-- The level below which entries are dropped, if it has one of its own. -/
  level : Option Nat := none
  /-- How many of its handlers hand entries on to the sinks. -/
  handlers : Nat := 0
  deriving DecidableEq

/-- The loggers that there are, by name. -/
abbrev Loggers := Entries Logger

namespace Loggers

/-- Asks for a logger, which comes to be if there is none of the name. -/
def touch (name : Text) (ls : Loggers) : Loggers :=
  if (ls.get? name).isSome then ls else ls.put name {}

/-- The names of the loggers above one, the nearest first, from its name in reverse. Where no logger
has the name in front of a point, the search goes on behind the last code point of that name: a
point there separates nothing. -/
def above (ls : Loggers) : (reversed : Text) → List Text
  | .scalar '.' :: c :: rest =>
    if (ls.get? (c :: rest).reverse).isSome then (c :: rest).reverse :: above ls (c :: rest)
    else above ls rest
  | _ :: rest => above ls rest
  | [] => []

/-- The name of a logger and the names of those above it. -/
def lineage (ls : Loggers) (name : Text) : List Text := name :: above ls name.reverse

/-- A logger and those above it. -/
def chain (ls : Loggers) (name : Text) : List Logger := (ls.lineage name).filterMap fun n => ls.get? n

/-- The level below which the entries of a logger are dropped. Above all loggers stands that of
warnings. -/
def threshold (ls : Loggers) (name : Text) : Nat :=
  ((ls.chain name).findSome? (·.level)).getD Level.warning.number

/-- How many handlers hand an entry of a logger on to the sinks. -/
def handlers (ls : Loggers) (name : Text) : Nat :=
  (ls.chain name).foldr (fun l n => l.handlers + n) 0

end Loggers

end Bearer.Log
