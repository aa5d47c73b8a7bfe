import Bearer.Grant
import Bearer.Log.Level
import Bearer.Settings.Variables
import Bearer.Settings.Field
import Bearer.Text.LowerCase

/-! What the user sets. A value given as a keyword goes before one given by a variable of the environment, which goes
before one in a file of variables. -/

namespace Bearer

/-- Where the program runs. -/
inductive Deployment where
  | development
  | staging
  | production
  deriving DecidableEq

namespace Deployment

def name : Deployment → Text
  | development => "development"
  | staging => "staging"
  | production => "production"

def all : List Deployment := [development, staging, production]

/-- The deployment of a name, which is written exactly so. -/
def ofName? (name : Text) : Option Deployment := all.find? (·.name = name)

theorem name_of_ofName? {name : Text} {d : Deployment} (hFound : ofName? name = some d) :
    d.name = name := of_decide_eq_true (List.find?_some hFound :)

end Deployment

/-- Settings, checked. The margin is in seconds. -/
structure Settings where
  root : Option Text
  accessToken : Option Text
  refreshToken : Option Text
  clientId : Option Text
  clientSecret : Option Text
  tokenUrl : Text
  refreshMargin : Int
  httpTimeout : Binary64
  deployment : Deployment
  logLevel : Log.Level

namespace Settings

def isProduction (s : Settings) : Bool := s.deployment = .production

/-- The options of a backend: the values that are set and not empty. -/
def options (s : Settings) : Entries Text :=
  [(Field.root, s.root), (.accessToken, s.accessToken), (.refreshToken, s.refreshToken),
    (.clientId, s.clientId), (.clientSecret, s.clientSecret)].filterMap fun (field, value) =>
      match value with
      | some (c :: t) => some (field.name, c :: t)
      | _ => none

/-- Any text will do, also one that no encoding can carry. -/
def checkText : Json → Except Problem Text
  | .string t => .ok t
  | _ => .error .notText

/-- A text that may be left out. -/
def checkOptionalText : Json → Except Problem (Option Text)
  | .null => .ok none
  | j => (checkText j).map some

/-- Whole numbers may be given as such, as truth values, as numbers without fractional part and
as texts, which then must be Unicode. -/
def checkInteger : Json → Except Problem Int
  | .int n => .ok n
  | .bool b => .ok (if b then 1 else 0)
  | .float x =>
    if x.isFinite then
      match x.toInt? with
      | some n => .ok n
      | none => .error .fractional
    else .error .notFinite
  | .string t =>
    if t.any CodePoint.isSurrogate then .error .notUnicode
    else if Decimal.maxIntegerLength < (t.trim Decimal.isBlank).length then .error .integerTooLong
    else match Decimal.readInt? t with
      | some n => .ok n
      | none => .error .unreadableInteger
  | _ => .error .notInteger

/-- Numbers may be given as such, as truth values and as texts. A whole number beyond the largest
number is none. -/
def checkNumber : Json → Except Problem Binary64
  | .float x => .ok x
  | .int n => if (Binary64.ofInt n).isFinite then .ok (Binary64.ofInt n) else .error .notNumber
  | .bool b => .ok (Binary64.ofInt (if b then 1 else 0))
  | .string t =>
    if t.any CodePoint.isSurrogate then .error .notUnicode
    else match Decimal.readFloat? t with
      | some x => .ok x
      | none => .error .unreadableNumber
  | _ => .error .notNumber

def checkMargin (j : Json) : Except Problem Int := do
  let n ← checkInteger j
  if n < 0 then .error .negativeMargin else return n

/-- A timeout must not be zero or below it. -/
def checkTimeout (j : Json) : Except Problem Binary64 := do
  let x ← checkNumber j
  if x.isNonPositive then .error .timeoutNotPositive else return x

def checkDeployment (j : Json) : Except Problem Deployment := do
  let name ← checkText j
  match Deployment.ofName? name with
  | some d => return d
  | none => .error .unknownDeployment

/-- A standard level, by its name in any case. -/
def checkLevel (j : Json) : Except Problem Log.Level := do
  let name ← checkText j
  match Log.Level.ofName? name.toUpper with
  | some l => if l.isStandard then return l else .error .unknownLevel
  | none => .error .unknownLevel

/-- The timeout by default, in seconds. -/
def defaultTimeout : Binary64 := Binary64.ofInt 30

/-- The settings that given values make. -/
def ofGiven (given? : Field → Option Json) : Checked Settings :=
  let field {α : Type} (f : Field) (default : α) (check : Json → Except Problem α) : Checked α :=
    .ofGiven f default check (given? f)
  Checked.valid Settings.mk
    |>.apply (field .root none checkOptionalText)
    |>.apply (field .accessToken none checkOptionalText)
    |>.apply (field .refreshToken none checkOptionalText)
    |>.apply (field .clientId none checkOptionalText)
    |>.apply (field .clientSecret none checkOptionalText)
    |>.apply (field .tokenUrl Grant.defaultUrl checkText)
    |>.apply (field .refreshMargin 60 checkMargin)
    |>.apply (field .httpTimeout defaultTimeout checkTimeout)
    |>.apply (field .deployment .development checkDeployment)
    |>.apply (field .logLevel .info checkLevel)

/-- The value of the last variable that has a name, in any case. -/
def lookup? {α : Type} (name : Text) (assigned : Entries α) : Option α :=
  (assigned.reverse.find? fun (n, _) => n.toLower = name).map (·.2)

/-- Where values are given. -/
structure Sources where
  keywords : Entries Json := []
  environment : Entries Text := []
  file : Option Text := none

/-- The value given for a field, from the source that goes first. -/
def Sources.given? (s : Sources) (f : Field) : Option Json :=
  match s.keywords.get? f.name with
  | some j => some j
  | none =>
    match lookup? f.variableName s.environment with
    | some t => some (.string t)
    | none =>
      let assigned := Variables.read s.environment (s.file.getD [])
      ((lookup? f.variableName assigned).bind id).map .string

/-- The settings of the given sources. -/
def read (s : Sources) : Checked Settings := ofGiven s.given?

/-- The settings read once and kept, and whether they had been kept before. A reading that fails
keeps nothing. -/
def readOnce (kept : Option Settings) (s : Sources) : Checked (Settings × Bool) :=
  match kept with
  | some settings => .valid (settings, true)
  | none =>
    match read s with
    | .valid settings => .valid (settings, false)
    | .invalid issues => .invalid issues

end Settings

end Bearer
