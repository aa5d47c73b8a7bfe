import Bearer.Decimal.Digits

/-! The named levels of the log with their numbers, and severities that are given by a number alone. -/

namespace Bearer.Log

/-- A named level. -/
inductive Level where
  | trace
  | debug
  | info
  | success
  | warning
  | error
  | critical
  deriving DecidableEq

namespace Level

/-- The number that levels are compared by. -/
def number : Level → Nat
  | trace => 5
  | debug => 10
  | info => 20
  | success => 25
  | warning => 30
  | error => 40
  | critical => 50

def name : Level → Text
  | trace => "TRACE"
  | debug => "DEBUG"
  | info => "INFO"
  | success => "SUCCESS"
  | warning => "WARNING"
  | error => "ERROR"
  | critical => "CRITICAL"

/-- All levels, the least severe first. -/
def all : List Level := [trace, debug, info, success, warning, error, critical]

/-- The level of a name. -/
def ofName? (name : Text) : Option Level := all.find? (·.name = name)

/-- The levels that the standard loggers know as well. -/
def isStandard : Level → Bool
  | trace | success => false
  | debug | info | warning | error | critical => true

/-- The standard level of a number. -/
def ofStandardNumber? (n : Int) : Option Level :=
  all.find? fun l => l.isStandard && (l.number : Int) == n

theorem ofName?_name (l : Level) : ofName? l.name = some l := by cases l <;> decide

theorem name_of_ofName? {name : Text} {l : Level} (hFound : ofName? name = some l) :
    l.name = name := of_decide_eq_true (List.find?_some hFound :)

end Level

/-- How severe a record is: a named level, or a number without a name. -/
inductive Severity where
  | level (l : Level)
  | number (n : Nat)
  deriving DecidableEq

namespace Severity

/-- The number that severities are compared by. -/
def rank : Severity → Nat
  | level l => l.number
  | number n => n

/-- The name that is shown. -/
def label : Severity → Text
  | level l => l.name
  | number n => ("Level " : Text) ++ Decimal.ofNat n

end Severity

end Bearer.Log
