import Bearer.Json.Value
import Bearer.Text.Hex
import Bearer.Text.Wide

/-! The reader accepts RFC 8259 texts and, beyond them, the three numbers `NaN`, `Infinity` and `-Infinity`. Of
members with the same name the last value counts, at the place of the first. -/

namespace Bearer

namespace Json

/-- What the reader was looking for when it stopped. -/
inductive Expectation where
  | value
  | memberName
  | colon
  | comma
  | stringEnd
  | noControl
  | escape
  | unicodeEscape
  | textEnd
  deriving DecidableEq

/-- Why a text is not read. -/
inductive ReadError where
  | unexpected (expected : Expectation) (position : Nat)
  | tooManyDigits (count : Nat)
  deriving DecidableEq

/-- A value that holds others. -/
inductive Container where
  | array
  | object
  deriving DecidableEq

/-- Why the reader stops: the text is no document, or it opens a container that is one too many. -/
inductive Stop where
  | unreadable (why : ReadError)
  | tooDeep (container : Container)
  deriving DecidableEq

/-- The greatest number of digits of an integer. -/
def maxDigits : Nat := 4300

/-- How many containers may be open at once where nothing else is told: what is left of a stack of a
thousand frames. -/
def usualNesting : Nat := 980

/-- A place in a text: the number of code points before it, and the text from it on. -/
structure Cursor where
  position : Nat
  rest : Text

namespace Cursor

def isBlank (c : CodePoint) : Bool :=
  c == .scalar ' ' || c == .scalar '\t' || c == .scalar '\n' || c == .scalar '\r'

/-- The place behind the blanks. -/
def skipBlanks (c : Cursor) : Cursor :=
  ⟨c.position + (c.rest.takeWhile isBlank).length, c.rest.dropWhile isBlank⟩

end Cursor

/-- The number of four hexadecimal digits. -/
def hex4? (a b c d : CodePoint) : Option Nat := do
  let a ← Text.hexValue? a
  let b ← Text.hexValue? b
  let c ← Text.hexValue? c
  let d ← Text.hexValue? d
  return ((a * 16 + b) * 16 + c) * 16 + d

/-- The code point of an escape of one letter. -/
def simpleEscape? : CodePoint → Option CodePoint
  | .scalar '"' => some (.scalar '"')
  | .scalar '\\' => some (.scalar '\\')
  | .scalar '/' => some (.scalar '/')
  | .scalar 'b' => some (.scalar '\x08')
  | .scalar 'f' => some (.scalar '\x0c')
  | .scalar 'n' => some (.scalar '\n')
  | .scalar 'r' => some (.scalar '\r')
  | .scalar 't' => some (.scalar '\t')
  | _ => none

/-- The low surrogate that an escape at the head of a text denotes, and the text behind it. An
escape that ends the text does not count. -/
def lowSurrogate? : Text → Option (Nat × Text)
  | .scalar '\\' :: .scalar 'u' :: a :: b :: c :: d :: e :: rest =>
    match hex4? a b c d with
    | some n => if 0xDC00 ≤ n ∧ n < 0xE000 then some (n, e :: rest) else none
    | none => none
  | _ => none

/-- Reads the inside of a string up to and with its closing quote. `opening` is the position of
the opening quote. -/
def readStringBody (opening position : Nat) : (fuel : Nat) → Text → Except ReadError (Text × Cursor)
  | 0, _ => .error (.unexpected .stringEnd opening)
  | _ + 1, [] => .error (.unexpected .stringEnd opening)
  | _ + 1, .scalar '"' :: rest => .ok ([], ⟨position + 1, rest⟩)
  | _ + 1, [.scalar '\\'] => .error (.unexpected .stringEnd opening)
  | fuel + 1, .scalar '\\' :: .scalar 'u' :: rest =>
    match rest with
    | a :: b :: c :: d :: e :: tail =>
      match hex4? a b c d with
      | none => .error (.unexpected .unicodeEscape (position + 1))
      | some n =>
        match if 0xD800 ≤ n ∧ n < 0xDC00 then lowSurrogate? (e :: tail) else none with
        | some (low, tail) => do
          let (t, cursor) ← readStringBody opening (position + 12) fuel tail
          return ((Utf16.joinPair n low).toList ++ t, cursor)
        | none => do
          let (t, cursor) ← readStringBody opening (position + 6) fuel (e :: tail)
          return ((CodePoint.ofNat? n).toList ++ t, cursor)
    | _ => .error (.unexpected .unicodeEscape (position + 1))
  | fuel + 1, .scalar '\\' :: c :: rest =>
    match simpleEscape? c with
    | none => .error (.unexpected .escape position)
    | some c => do
      let (t, cursor) ← readStringBody opening (position + 2) fuel rest
      return (c :: t, cursor)
  | fuel + 1, c :: rest =>
    if c.toNat < 0x20 then .error (.unexpected .noControl position)
    else do
      let (t, cursor) ← readStringBody opening (position + 1) fuel rest
      return (c :: t, cursor)

/-- Reads a string, the cursor standing behind its opening quote. -/
def readString (c : Cursor) : Except ReadError (Text × Cursor) :=
  readStringBody (c.position - 1) c.position (c.rest.length + 1) c.rest

/-- The digits of a fraction at the head of a text, the point included. -/
def takeFraction : Text → List Nat × Text
  | .scalar '.' :: rest =>
    match Decimal.takeDigits rest with
    | ([], _) => ([], .scalar '.' :: rest)
    | (ds, rest) => (ds, rest)
  | t => ([], t)

/-- The exponent at the head of a text. -/
def takeExponent (t : Text) : Option Int × Text :=
  match t with
  | .scalar e :: rest =>
    if e = 'e' ∨ e = 'E' then
      let (down, rest) := match rest with
        | .scalar '-' :: rest => (true, rest)
        | .scalar '+' :: rest => (false, rest)
        | rest => (false, rest)
      match Decimal.takeDigits rest with
      | ([], _) => (none, t)
      | (ds, rest) =>
        let n : Int := Decimal.ofDigits ds
        (some (if down then -n else n), rest)
    else (none, t)
  | _ => (none, t)

/-- The digits of the whole part of a number: a zero alone, or digits that begin with another. -/
def takeWhole (t : Text) : List Nat × Text :=
  match t with
  | .scalar '0' :: rest => ([0], rest)
  | t => Decimal.takeDigits t

/-- Reads a number. A fraction or exponent without digits is left unread. -/
def readNumber (c : Cursor) : Except ReadError (Json × Cursor) :=
  let (negative, body) := match c.rest with
    | .scalar '-' :: rest => (true, rest)
    | rest => (false, rest)
  match takeWhole body with
  | ([], _) => .error (.unexpected .value c.position)
  | (whole, rest) =>
    let (fraction, rest) := takeFraction rest
    let (exponent, rest) := takeExponent rest
    let cursor : Cursor := ⟨c.position + (c.rest.length - rest.length), rest⟩
    if fraction.isEmpty && exponent.isNone then
      if maxDigits < whole.length then .error (.tooManyDigits whole.length)
      else
        let n : Int := Decimal.ofDigits whole
        .ok (.int (if negative then -n else n), cursor)
    else
      let number := Decimal.ofDigits (whole ++ fraction)
      .ok (.float (Binary64.ofDecimal negative number (exponent.getD 0 - fraction.length)), cursor)

/-- The values that are written by a name, in the order in which they are looked for. -/
def named : List (Text × Json) := [
  ("null", .null), ("true", .bool true), ("false", .bool false), ("NaN", .float Binary64.nan),
  ("Infinity", .float (Binary64.infinity false)), ("-Infinity", .float (Binary64.infinity true))]

/-- Reads a value that is neither a string nor a container. -/
def readAtom (c : Cursor) : Except ReadError (Json × Cursor) :=
  match named.find? (fun (name, _) => name.isPrefixOf c.rest) with
  | some (name, v) => .ok (v, ⟨c.position + name.length, c.rest.drop name.length⟩)
  | none => readNumber c

mutual

/-- Reads one value. `nesting` is how many containers may still be opened. -/
def readValue : (fuel nesting : Nat) → Cursor → Except Stop (Json × Cursor)
  | 0, _, c => .error (.unreadable (.unexpected .value c.position))
  | fuel + 1, nesting, c =>
    match c.rest with
    | .scalar '"' :: rest => do
      let (t, c) ← (readString ⟨c.position + 1, rest⟩).mapError .unreadable
      return (.string t, c)
    | .scalar '[' :: rest =>
      match nesting with
      | 0 => .error (.tooDeep .array)
      | nesting + 1 =>
        let c := Cursor.skipBlanks ⟨c.position + 1, rest⟩
        match c.rest with
        | .scalar ']' :: rest => .ok (.array [], ⟨c.position + 1, rest⟩)
        | _ => do
          let (items, c) ← readElements fuel nesting c
          return (.array items, c)
    | .scalar '{' :: rest =>
      match nesting with
      | 0 => .error (.tooDeep .object)
      | nesting + 1 =>
        let c := Cursor.skipBlanks ⟨c.position + 1, rest⟩
        match c.rest with
        | .scalar '}' :: rest => .ok (.object [], ⟨c.position + 1, rest⟩)
        | _ => do
          let (pairs, c) ← readMembers fuel nesting c
          return (.object (Entries.ofList pairs), c)
    | _ => (readAtom c).mapError .unreadable

/-- Reads the elements of an array, at least one, up to and with the closing bracket. -/
def readElements : (fuel nesting : Nat) → Cursor → Except Stop (List Json × Cursor)
  | 0, _, c => .error (.unreadable (.unexpected .value c.position))
  | fuel + 1, nesting, c => do
    let (v, c) ← readValue fuel nesting c
    let c := c.skipBlanks
    match c.rest with
    | .scalar ']' :: rest => return ([v], ⟨c.position + 1, rest⟩)
    | .scalar ',' :: rest => do
      let (items, c) ← readElements fuel nesting (Cursor.skipBlanks ⟨c.position + 1, rest⟩)
      return (v :: items, c)
    | _ => .error (.unreadable (.unexpected .comma c.position))

/-- Reads the members of an object, at least one, up to and with the closing brace. -/
def readMembers : (fuel nesting : Nat) → Cursor → Except Stop (List (Text × Json) × Cursor)
  | 0, _, c => .error (.unreadable (.unexpected .memberName c.position))
  | fuel + 1, nesting, c =>
    match c.rest with
    | .scalar '"' :: rest => do
      let (name, c) ← (readString ⟨c.position + 1, rest⟩).mapError .unreadable
      let c := c.skipBlanks
      match c.rest with
      | .scalar ':' :: rest => do
        let (v, c) ← readValue fuel nesting (Cursor.skipBlanks ⟨c.position + 1, rest⟩)
        let c := c.skipBlanks
        match c.rest with
        | .scalar '}' :: rest => return ([(name, v)], ⟨c.position + 1, rest⟩)
        | .scalar ',' :: rest => do
          let (pairs, c) ← readMembers fuel nesting (Cursor.skipBlanks ⟨c.position + 1, rest⟩)
          return ((name, v) :: pairs, c)
        | _ => .error (.unreadable (.unexpected .comma c.position))
      | _ => .error (.unreadable (.unexpected .colon c.position))
    | _ => .error (.unreadable (.unexpected .memberName c.position))

end

/-- Reads a whole text, in which at most `nesting` containers may be open at once. Two steps of the
reader never stand at the same place more than twice, which bounds their number. -/
def read (t : Text) (nesting : Nat := usualNesting) : Except Stop Json := do
  let (v, c) ← readValue (2 * t.length + 2) nesting (Cursor.skipBlanks ⟨0, t⟩)
  let c := c.skipBlanks
  if c.rest.isEmpty then return v else .error (.unreadable (.unexpected .textEnd c.position))

namespace Expectation

/-- The wording of an expectation. -/
def message : Expectation → Text
  | value => "Expecting value"
  | memberName => "Expecting property name enclosed in double quotes"
  | colon => "Expecting ':' delimiter"
  | comma => "Expecting ',' delimiter"
  | stringEnd => "Unterminated string starting at"
  | noControl => "Invalid control character at"
  | escape => "Invalid \\escape"
  | unicodeEscape => "Invalid \\uXXXX escape"
  | textEnd => "Extra data"

end Expectation

/-- The line of a position, counted from one. -/
def lineOf (t : Text) (position : Nat) : Nat := (t.take position).count (.scalar '\n') + 1

/-- The column of a position in its line, counted from one. -/
def columnOf (t : Text) (position : Nat) : Nat :=
  ((t.take position).reverse.takeWhile (· != .scalar '\n')).length + 1

/-- The wording of an error in a text. -/
def ReadError.message (t : Text) : ReadError → Text
  | unexpected expected position =>
    expected.message ++ (": line " : Text) ++ Decimal.ofNat (lineOf t position)
      ++ (" column " : Text) ++ Decimal.ofNat (columnOf t position)
      ++ (" (char " : Text) ++ Decimal.ofNat position ++ (")" : Text)
  | tooManyDigits count =>
    ("Exceeds the limit (" : Text) ++ Decimal.ofNat maxDigits
      ++ (" digits) for integer string conversion: value has " : Text) ++ Decimal.ofNat count
      ++ (" digits; use sys.set_int_max_str_digits() to increase the limit" : Text)

namespace Container

def name : Container → Text
  | array => "array"
  | object => "object"

/-- The wording of the error that a container is one too many. -/
def message (c : Container) : Text :=
  ("maximum recursion depth exceeded while decoding a JSON " : Text) ++ c.name
    ++ (" from a unicode string" : Text)

end Container

end Json

end Bearer
