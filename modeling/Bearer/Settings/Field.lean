import Bearer.Log.Datum

/-! The fields that settings are made of, what can be wrong with the value given for one, and values checked so that
every issue is found and not the first alone. -/

namespace Bearer.Settings

/-- A field. -/
inductive Field where
  | root
  | accessToken
  | refreshToken
  | clientId
  | clientSecret
  | tokenUrl
  | refreshMargin
  | httpTimeout
  | deployment
  | logLevel
  deriving DecidableEq

namespace Field

/-- The name of a field as a keyword. -/
def name : Field → Text
  | root => "root"
  | accessToken => "access_token"
  | refreshToken => "refresh_token"
  | clientId => "client_id"
  | clientSecret => "client_secret"
  | tokenUrl => "token_url"
  | refreshMargin => "refresh_margin_seconds"
  | httpTimeout => "http_timeout"
  | deployment => "environment"
  | logLevel => "log_level"

/-- The name of a field as a variable, in lower case. -/
def variableName (f : Field) : Text := ("dropbox_" : Text) ++ f.name

end Field

/-- What is wrong with a value. -/
inductive Problem where
  | notText
  | notUnicode
  | notInteger
  | unreadableInteger
  | integerTooLong
  | fractional
  | notFinite
  | notNumber
  | unreadableNumber
  | unknownDeployment
  | unknownLevel
  | negativeMargin
  | timeoutNotPositive
  deriving DecidableEq

namespace Problem

/-- The word that classes a problem. -/
def code : Problem → Text
  | notText => "string_type"
  | notUnicode => "string_unicode"
  | notInteger => "int_type"
  | unreadableInteger => "int_parsing"
  | integerTooLong => "int_parsing_size"
  | fractional => "int_from_float"
  | notFinite => "finite_number"
  | notNumber => "float_type"
  | unreadableNumber => "float_parsing"
  | unknownDeployment | unknownLevel | negativeMargin | timeoutNotPositive => "value_error"

/-- Texts as a set is written, each in quotes. -/
def written (members : List Text) : Text :=
  .scalar '\x7b' :: Text.join ", " (members.map Text.quoted) ++ [.scalar '\x7d']

/-- The wording of a problem. Sets are written in a given order. -/
def message (p : Problem) (order : List Text → List Text := id) : Text :=
  match p with
  | notText => "Input should be a valid string"
  | notUnicode =>
    "Input should be a valid string, unable to parse raw data as a unicode string"
  | notInteger => "Input should be a valid integer"
  | unreadableInteger => "Input should be a valid integer, unable to parse string as an integer"
  | integerTooLong => "Unable to parse input string as an integer, exceeded maximum size"
  | fractional => "Input should be a valid integer, got a number with a fractional part"
  | notFinite => "Input should be a finite number"
  | notNumber => "Input should be a valid number"
  | unreadableNumber => "Input should be a valid number, unable to parse string as a number"
  | unknownDeployment => ("Value error, environment must be one of: " : Text)
      ++ written (order ["development", "production", "staging"])
  | unknownLevel => ("Value error, log_level must be one of: " : Text)
      ++ written (order ["CRITICAL", "DEBUG", "ERROR", "INFO", "WARNING"])
  | negativeMargin => "Value error, refresh_margin_seconds must not be negative"
  | timeoutNotPositive => "Value error, http_timeout must be positive"

end Problem

/-- What the description of issues depends on besides them: the page that tells more of each class of problems,
if pages are referred to, and the order in which the names in a set are written. -/
structure Wording where
  page? : Option (Text → Text)
  order : List Text → List Text
  order_perm : ∀ names, (order names).Perm names

/-- The wording without pages, with sets in the order in which they are given. -/
def Wording.plain : Wording := ⟨none, id, fun _ => .refl _⟩

/-- A field, what is wrong with its value, and the value. -/
structure Issue where
  field : Field
  problem : Problem
  given : Json

namespace Issue

/-- The word for the type of a value. -/
def typeName : Json → Text
  | .null => "NoneType"
  | .bool _ => "bool"
  | .int _ => "int"
  | .float _ => "float"
  | .string _ => "str"
  | .array _ => "list"
  | .object _ => "dict"

/-- The longest part of a text at its head that takes no more than a number of bytes. -/
def headWithin (bytes : Nat) : Text → Text
  | [] => []
  | c :: rest =>
    let size := Utf8.size c
    if size ≤ bytes then c :: headWithin (bytes - size) rest else []

/-- A text of more than 50 bytes with its middle left out. -/
def shortened (t : Text) : Text :=
  if Utf8.length t ≤ 50 then t
  else headWithin 25 t ++ ("..." : Text) ++ (headWithin 24 t.reverse).reverse

/-- The line that refers to the page about a problem. -/
def reference (w : Wording) (i : Issue) : Text :=
  match w.page? with
  | none => []
  | some page => ("\n    For further information visit " : Text) ++ page i.problem.code

/-- The lines that describe an issue. -/
def describe (w : Wording) (i : Issue) : Text :=
  i.field.name ++ ("\n  " : Text) ++ i.problem.message w.order ++ (" [type=" : Text) ++ i.problem.code
    ++ (", input_value=" : Text) ++ shortened (Log.Datum.ofJson i.given).quoted
    ++ (", input_type=" : Text) ++ typeName i.given ++ ("]" : Text) ++ reference w i

/-- The description of a list of issues. -/
def describeAll (w : Wording) (issues : List Issue) : Text :=
  let head : Text := if issues.length = 1 then " validation error for Settings"
    else " validation errors for Settings"
  Text.join "\n" ((Decimal.ofNat issues.length ++ head) :: issues.map (describe w))

end Issue

/-- A value, or the issues found on the way to it. -/
inductive Checked (α : Type) where
  | valid (value : α)
  | invalid (issues : List Issue)

namespace Checked

variable {α β : Type}

/-- Applies a checked function to a checked value; the issues of both are kept, in order. -/
def apply : Checked (α → β) → Checked α → Checked β
  | valid f, valid a => valid (f a)
  | valid _, invalid issues => invalid issues
  | invalid issues, valid _ => invalid issues
  | invalid issues, invalid more => invalid (issues ++ more)

theorem apply_eq_valid {f : Checked (α → β)} {a : Checked α} {b : β} :
    f.apply a = valid b ↔ ∃ g x, f = valid g ∧ a = valid x ∧ g x = b := by
  cases f <;> cases a <;> simp [apply]

/-- The outcome of a check of the value given for a field. -/
def ofExcept (field : Field) (given : Json) : Except Problem α → Checked α
  | .ok a => valid a
  | .error problem => invalid [⟨field, problem, given⟩]

/-- What is made of the value given for a field, which has a default. -/
def ofGiven (field : Field) (default : α) (check : Json → Except Problem α) : Option Json → Checked α
  | none => valid default
  | some given => ofExcept field given (check given)

theorem ofExcept_eq_valid {field : Field} {given : Json}
    {checked : Except Problem α} {a : α} :
    ofExcept field given checked = .valid a ↔ checked = .ok a := by
  cases checked <;> simp [ofExcept]

end Checked

end Bearer.Settings
