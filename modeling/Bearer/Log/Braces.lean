import Bearer.Log.Format

/-! The messages of direct entries mark places with braces: a place names a value, goes on to a part of it, may quote
it, and may say how it is written. The last may hold places of its own. -/

namespace Bearer.Log

/-- Why a message with places in braces can not be filled in. -/
inductive BraceError where
  | singleOpening
  | singleClosing
  | openingInName
  | unclosedPlace
  | endInConversion
  | unexpectedAfterConversion
  | unclosedFormat
  | unknownConversion (c : CodePoint)
  | nestedTooDeep
  | tooManyDigits
  | emptyPart
  | unclosedIndex
  | unexpectedAfterIndex
  | missingPosition (index : Nat)
  | missingName (name : Text)
  | missingMember (name : Text)
  | missingNumber (index : Nat)
  | noAttribute (typeName name : Text)
  | listIndex
  | textIndex
  | listRange
  | textRange
  | noParts (typeName : Text)
  | format (e : FormatError)

namespace BraceError

/-- The kind of an error. -/
def kind : BraceError → Text
  | missingPosition _ | listRange | textRange => "IndexError"
  | missingName _ | missingMember _ | missingNumber _ => "KeyError"
  | noAttribute _ _ => "AttributeError"
  | listIndex | textIndex | noParts _ => "TypeError"
  | format e => e.kind
  | _ => "ValueError"

def message : BraceError → Text
  | singleOpening => "Single '\x7b' encountered in format string"
  | singleClosing => "Single '\x7d' encountered in format string"
  | openingInName => "unexpected '\x7b' in field name"
  | unclosedPlace => "expected '\x7d' before end of string"
  | endInConversion => "end of string while looking for conversion specifier"
  | unexpectedAfterConversion => "expected ':' after conversion specifier"
  | unclosedFormat => "unmatched '\x7b' in format spec"
  | unknownConversion c =>
    ("Unknown conversion specifier " : Text) ++ FormatError.conversionName c
  | nestedTooDeep => "Max string recursion exceeded"
  | tooManyDigits => FormatError.tooManyDigits.message
  | emptyPart => "Empty attribute in format string"
  | unclosedIndex => "Missing ']' in format string"
  | unexpectedAfterIndex => "Only '.' or '[' may follow ']' in format field specifier"
  | missingPosition index =>
    ("Replacement index " : Text) ++ Decimal.ofNat index
      ++ (" out of range for positional args tuple" : Text)
  | missingName name | missingMember name => name.quoted
  | missingNumber index => Decimal.ofNat index
  | noAttribute typeName name =>
    ("'" : Text) ++ typeName ++ ("' object has no attribute '" : Text) ++ name ++ ("'" : Text)
  | listIndex => "list indices must be integers or slices, not str"
  | textIndex => "string indices must be integers, not 'str'"
  | listRange => "list index out of range"
  | textRange => "string index out of range"
  | noParts typeName => ("'" : Text) ++ typeName ++ ("' object is not subscriptable" : Text)
  | format e => e.message

end BraceError

namespace Braces

/-- What stands between the braces of a place. -/
structure Place where
  name : Text
  conversion : Option CodePoint := none
  format : Text := []
  deriving DecidableEq

/-- The name at the head of a place, the code point that ends it, and the text behind. What stands
between square brackets ends no name. -/
def takeName (inside : Bool) : Text → Except BraceError (Text × CodePoint × Text)
  | [] => .error .unclosedPlace
  | c :: rest =>
    if inside then
      (takeName (c != .scalar ']') rest).map fun (name, tail) => (c :: name, tail)
    else if c = .scalar '{' then .error .openingInName
    else if c = .scalar '}' ∨ c = .scalar ':' ∨ c = .scalar '!' then .ok ([], c, rest)
    else (takeName (c == .scalar '[') rest).map fun (name, tail) => (c :: name, tail)

/-- The format at the end of a place, whose own places may be nested, and the text behind it. -/
def takeFormat : (depth : Nat) → Text → Except BraceError (Text × Text)
  | _, [] => .error .unclosedFormat
  | 0, .scalar '}' :: rest => .ok ([], rest)
  | depth, c :: rest =>
    let depth := if c = .scalar '{' then depth + 1 else if c = .scalar '}' then depth - 1 else depth
    (takeFormat depth rest).map fun (format, after) => (c :: format, after)

/-- The conversion and the format behind an exclamation mark, and the text behind the place. -/
def takeConversion : Text → Except BraceError (CodePoint × Text × Text)
  | [] => .error .endInConversion
  | [_] => .error .unclosedFormat
  | c :: .scalar '}' :: rest => .ok (c, [], rest)
  | c :: .scalar ':' :: rest => (takeFormat 0 rest).map fun (format, after) => (c, format, after)
  | _ :: _ :: _ => .error .unexpectedAfterConversion

/-- The place behind an opening brace, and the text behind the place. -/
def takePlace (t : Text) : Except BraceError (Place × Text) := do
  let (name, stop, rest) ← takeName false t
  if stop = .scalar '!' then
    let (c, format, rest) ← takeConversion rest
    return ({ name, conversion := some c, format }, rest)
  else if stop = .scalar ':' then
    let (format, rest) ← takeFormat 0 rest
    return ({ name, format }, rest)
  else return ({ name }, rest)

/-- The number that a part of a name is, if it is one. -/
def index? (part : Text) : Except BraceError (Option Nat) :=
  match Format.takeCount part with
  | .error _ => .error .tooManyDigits
  | .ok (n, rest) => .ok (if rest.isEmpty then n else none)

/-- The part of a value under a name. -/
def memberOf (d : Datum) (name : Text) : Except BraceError Datum :=
  match d with
  | .mapping entries =>
    match entries.lookup name with
    | some d => .ok d
    | none => .error (.missingMember name)
  | .list _ => .error .listIndex
  | .text _ => .error .textIndex
  | d => .error (.noParts d.typeName)

/-- The part of a value at a position. -/
def itemOf (d : Datum) (index : Nat) : Except BraceError Datum :=
  match d with
  | .list items =>
    match items[index]? with
    | some d => .ok d
    | none => .error .listRange
  | .text t =>
    match t[index]? with
    | some c => .ok (.text [c])
    | none => .error .textRange
  | .mapping _ => .error (.missingNumber index)
  | d => .error (.noParts d.typeName)

/-- Whether a code point begins the next part of a name. -/
def beginsPart (c : CodePoint) : Bool := c == .scalar '.' || c == .scalar '['

/-- The part of a value that the rest of a name leads to. -/
def follow (d : Datum) : Text → Except BraceError Datum
  | [] => .ok d
  | .scalar '.' :: rest =>
    match rest.takeWhile (!beginsPart ·) with
    | [] => .error .emptyPart
    | name => .error (.noAttribute d.typeName name)
  | .scalar '[' :: rest => do
    let part := rest.takeWhile (· != .scalar ']')
    if part.length = rest.length then throw .unclosedIndex
    let index ← index? part
    if part.isEmpty then throw .emptyPart
    let d ← match index with
      | some n => itemOf d n
      | none => memberOf d part
    follow d (rest.drop (part.length + 1))
  | _ => .error .unexpectedAfterIndex
termination_by t => t.length
decreasing_by
  simp only [List.length_drop, List.length_cons]
  omega

/-- The value that the name of a place leads to. -/
def valueOf (named : Entries Datum) (name : Text) : Except BraceError Datum := do
  let first := name.takeWhile (!beginsPart ·)
  if first.isEmpty then throw (.missingPosition 0)
  match ← index? first with
  | some n => throw (.missingPosition n)
  | none =>
    match named.get? first with
    | none => throw (.missingName first)
    | some d => follow d (name.drop first.length)

/-- The value that a conversion makes of a value. -/
def convert (d : Datum) : Option CodePoint → Except BraceError Datum
  | none => .ok d
  | some (.scalar 's') => .ok (.text d.shown)
  | some (.scalar 'r') => .ok (.text d.quoted)
  | some (.scalar 'a') => .ok (.text d.quotedAscii)
  | some c => .error (.unknownConversion c)

/-- Fills in the places of a text. Formats that have places of their own are filled in first, with
one `depth` less. `fuel` is at least the length of the text. -/
def fill (named : Entries Datum) : (depth fuel : Nat) → Text → Except BraceError Text
  | 0, _, _ => .error .nestedTooDeep
  | _ + 1, 0, _ => .ok []
  | _ + 1, _ + 1, [] => .ok []
  | depth + 1, fuel + 1, .scalar '{' :: .scalar '{' :: rest =>
    (fill named (depth + 1) fuel rest).map (.scalar '{' :: ·)
  | depth + 1, fuel + 1, .scalar '}' :: .scalar '}' :: rest =>
    (fill named (depth + 1) fuel rest).map (.scalar '}' :: ·)
  | _ + 1, _ + 1, .scalar '}' :: _ => .error .singleClosing
  | _ + 1, _ + 1, [.scalar '{'] => .error .singleOpening
  | depth + 1, fuel + 1, .scalar '{' :: rest => do
    let (place, rest) ← takePlace rest
    let d ← convert (← valueOf named place.name) place.conversion
    let format ← if place.format.contains (.scalar '{') then
        fill named depth place.format.length place.format
      else pure place.format
    let shown ← (d.formatted format).mapError .format
    return shown ++ (← fill named (depth + 1) fuel rest)
  | depth + 1, fuel + 1, c :: rest => (fill named (depth + 1) fuel rest).map (c :: ·)

/-- The message with its places filled in. Formats may have places, theirs may not. -/
def message (named : Entries Datum) (template : Text) : Except BraceError Text :=
  fill named 2 template.length template

end Braces

end Bearer.Log
