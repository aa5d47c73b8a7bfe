import Bearer.Log.Datum
import Bearer.Decimal.Fixed

/-! The messages of standard loggers mark the places of their arguments with a percent sign. A template whose places
and arguments do not fit each other has no message. -/

namespace Bearer.Log

/-- Why a template has no message. -/
inductive TemplateError where
  | notEnoughArguments
  | leftoverArguments
  | incompletePlace
  | incompleteKey
  | unsupportedConversion (c : CodePoint) (index : Nat)
  | mappingRequired
  | missingKey (key : Text)
  | numberRequired (conversion : Char) (given : Text)
  | integerRequired (conversion : Char) (given : Text)
  | floatRequired (given : Text)
  | characterRequired
  | characterOutOfRange
  | starNeedsInteger
  | widthTooBig
  | precisionTooBig
  | widthOutOfRange
  | precisionOutOfRange
  | infiniteInteger
  | undefinedInteger
  | floatTooLarge

namespace TemplateError

/-- The kind of an error. -/
def kind : TemplateError → Text
  | missingKey _ => "KeyError"
  | incompletePlace | incompleteKey | unsupportedConversion _ _ | undefinedInteger | widthTooBig
  | precisionTooBig => "ValueError"
  | characterOutOfRange | infiniteInteger | floatTooLarge | widthOutOfRange
  | precisionOutOfRange => "OverflowError"
  | _ => "TypeError"

def message : TemplateError → Text
  | notEnoughArguments => "not enough arguments for format string"
  | leftoverArguments => "not all arguments converted during string formatting"
  | incompletePlace => "incomplete format"
  | incompleteKey => "incomplete format key"
  | unsupportedConversion c index =>
    ("unsupported format character '" : Text)
      ++ [if 0x1F < c.toNat ∧ c.toNat < 0x7F then c else .scalar '?']
      ++ ("' (0x" : Text)
      ++ (Text.hex 6 c.toNat).dropWhile (· == .scalar '0')
      ++ (") at index " : Text) ++ Decimal.ofNat index
  | mappingRequired => "format requires a mapping"
  | missingKey key => key.quoted
  | numberRequired conversion given =>
    ("%" : Text) ++ [.scalar conversion] ++ (" format: a real number is required, not " : Text)
      ++ given
  | integerRequired conversion given =>
    ("%" : Text) ++ [.scalar conversion] ++ (" format: an integer is required, not " : Text)
      ++ given
  | floatRequired given => ("must be real number, not " : Text) ++ given
  | characterRequired => "%c requires int or char"
  | characterOutOfRange => "%c arg not in range(0x110000)"
  | starNeedsInteger => "* wants int"
  | widthTooBig => "width too big"
  | precisionTooBig => "precision too big"
  | widthOutOfRange => "Python int too large to convert to C ssize_t"
  | precisionOutOfRange => "Python int too large to convert to C int"
  | infiniteInteger => "cannot convert float infinity to integer"
  | undefinedInteger => "cannot convert float NaN to integer"
  | floatTooLarge => "int too large to convert to float"

end TemplateError

namespace Datum

/-- The name of the type of a value. -/
def typeName : Datum → Text
  | null => "NoneType"
  | bool _ => "bool"
  | int _ => "int"
  | float _ => "float"
  | text _ => "str"
  | instant _ => "datetime.datetime"
  | list _ => "list"
  | mapping _ => "dict"

/-- The integer that a truth value or integer stands for. -/
def integer? : Datum → Option Int
  | bool b => some (if b then 1 else 0)
  | int n => some n
  | _ => none

/-- The quoted form with every code point beyond ASCII written by its number. -/
def quotedAscii (d : Datum) : Text :=
  d.quoted.flatMap fun c => if c.toNat < 0x80 then [c] else Text.numberEscape c

end Datum

namespace Template

/-- The flags of a place. -/
structure Flags where
  left : Bool := false
  plus : Bool := false
  blank : Bool := false
  alternate : Bool := false
  zero : Bool := false

/-- What is left of the arguments. A mapping that is the only argument serves places with a key. The
value to use next is then the mapping as a whole, or the value under the key of the place. -/
inductive Supply where
  | positional (rest : List Datum)
  | keyed (entries : Entries Datum) (next? : Option Datum)

namespace Supply

/-- The supply that a list of arguments gives. -/
def ofList : List Datum → Supply
  | [.mapping (entry :: rest)] => keyed (entry :: rest) (some (.mapping (entry :: rest)))
  | ds => positional ds

/-- The next argument. -/
def next : Supply → Except TemplateError (Datum × Supply)
  | positional (d :: rest) => .ok (d, positional rest)
  | keyed entries (some d) => .ok (d, keyed entries none)
  | positional [] | keyed _ none => .error .notEnoughArguments

/-- The supply of a place with a key. -/
def select (key : Text) : Supply → Except TemplateError Supply
  | positional _ => .error .mappingRequired
  | keyed entries _ =>
    match entries.get? key with
    | none => .error (.missingKey key)
    | some d => .ok (keyed entries (some d))

/-- Whether nothing is left that had to be used. -/
def isUsedUp : Supply → Bool
  | positional rest => rest.isEmpty
  | keyed _ _ => true

end Supply

/-- The flags at the head of a text. -/
def takeFlags (flags : Flags) : Text → Flags × Text
  | .scalar '-' :: rest => takeFlags { flags with left := true } rest
  | .scalar '+' :: rest => takeFlags { flags with plus := true } rest
  | .scalar ' ' :: rest => takeFlags { flags with blank := true } rest
  | .scalar '#' :: rest => takeFlags { flags with alternate := true } rest
  | .scalar '0' :: rest => takeFlags { flags with zero := true } rest
  | t => (flags, t)

/-- The bounds of a number in a place: the errors of a number beyond them, written in the template
or given by an argument. -/
structure Bounds where
  greatest : Int
  written : TemplateError
  given : TemplateError

/-- The bounds of a width. -/
def widthBounds : Bounds := ⟨9223372036854775807, .widthTooBig, .widthOutOfRange⟩

/-- The bounds of a precision. -/
def precisionBounds : Bounds := ⟨2147483647, .precisionTooBig, .precisionOutOfRange⟩

/-- A number at the head of a text, or the next argument for a star. -/
def takeNumber (bounds : Bounds) (supply : Supply) (t : Text) :
    Except TemplateError (Option Int × Supply × Text) :=
  match t with
  | .scalar '*' :: rest => do
    let (d, supply) ← supply.next
    match d.integer? with
    | some n =>
      if bounds.greatest < n ∨ n < -bounds.greatest - 1 then .error bounds.given
      else return (some n, supply, rest)
    | none => .error .starNeedsInteger
  | t =>
    match Decimal.takeDigits t with
    | ([], _) => .ok (none, supply, t)
    | (ds, rest) =>
      let n : Int := (Decimal.ofDigits ds : Nat)
      if bounds.greatest < n then .error bounds.written else .ok (some n, supply, rest)

/-- The key in parentheses at the head of a text, and the text behind it. -/
def takeKey : (depth : Nat) → Text → Option (Text × Text)
  | _, [] => none
  | depth, .scalar '(' :: rest =>
    (takeKey (depth + 1) rest).map fun (k, r) => (.scalar '(' :: k, r)
  | 0, .scalar ')' :: rest => some ([], rest)
  | depth + 1, .scalar ')' :: rest =>
    (takeKey depth rest).map fun (k, r) => (.scalar ')' :: k, r)
  | depth, c :: rest => (takeKey depth rest).map fun (k, r) => (c :: k, r)

/-- The supply of a place whose key is at the head of a text, and the text behind the key. -/
def takeKeyed (supply : Supply) (t : Text) : Except TemplateError (Supply × Text) :=
  match supply, takeKey 0 t with
  | .positional _, _ => .error .mappingRequired
  | .keyed _ _, none => .error .incompleteKey
  | .keyed _ _, some (key, rest) => (supply.select key).map fun supply => (supply, rest)

/-- A written value: its sign and base marks, its body, and whether zeros may fill it. -/
structure Piece where
  lead : Text
  body : Text
  numeric : Bool

/-- The piece brought to a width. -/
def Piece.pad (flags : Flags) (width : Nat) (p : Piece) : Text :=
  let missing := width - (p.lead.length + p.body.length)
  if flags.left then p.lead ++ p.body ++ List.replicate missing (.scalar ' ')
  else if p.numeric && flags.zero then
    p.lead ++ List.replicate missing (.scalar '0') ++ p.body
  else List.replicate missing (.scalar ' ') ++ p.lead ++ p.body

/-- The sign of a number. -/
def signOf (flags : Flags) (negative : Bool) : Text :=
  if negative then "-" else if flags.plus then "+" else if flags.blank then " " else ""

/-- The digits of a number in a base of at most sixteen. -/
def inBase (base : Nat) (n : Nat) : Text := (Nat.toDigits base n).map .scalar

/-- A text with its ASCII letters in upper case. -/
def upperAscii : Text → Text :=
  List.map fun
    | .scalar c => .scalar c.toUpper
    | c => c

/-- An integer in one of the integer conversions. -/
def integerPiece (flags : Flags) (places : Nat) (conversion : Char) (n : Int) : Piece :=
  let m := n.natAbs
  let ds := match conversion with
    | 'o' => inBase 8 m
    | 'x' => inBase 16 m
    | 'X' => upperAscii (inBase 16 m)
    | _ => Decimal.ofNat m
  let mark : Text := if flags.alternate then
      match conversion with
      | 'o' => "0o"
      | 'x' => "0x"
      | 'X' => "0X"
      | _ => ""
    else ""
  ⟨signOf flags (n < 0) ++ mark, List.replicate (places - ds.length) (.scalar '0') ++ ds, true⟩

/-- A floating-point number in one of the floating-point conversions. -/
def floatPiece (flags : Flags) (places : Nat) (conversion : Char) (x : Binary64) : Piece :=
  let body := if x.isNaN then ("nan" : Text) else if x.isInfinite then "inf" else
    match conversion.toLower with
    | 'f' => Decimal.fixed places flags.alternate x
    | 'e' => Decimal.exponential places flags.alternate x
    | _ => Decimal.general places flags.alternate false x
  ⟨signOf flags (x.negative && !x.isNaN), if conversion.isUpper then upperAscii body else body,
    true⟩

/-- The integer that a value gives to an integer conversion; floating-point numbers are cut for
the decimal ones. -/
def integerOf (conversion : Char) (d : Datum) : Except TemplateError Int :=
  let decimal := conversion == 'd' || conversion == 'i' || conversion == 'u'
  match d.integer?, d with
  | some n, _ => .ok n
  | none, .float x =>
    if decimal then
      if x.isNaN then .error .undefinedInteger
      else if x.isInfinite then .error .infiniteInteger
      else
        let (num, den) := Binary64.shifted x.significand 1 x.scale
        let n : Int := (num / den : Nat)
        .ok (if x.negative then -n else n)
    else .error (.integerRequired conversion d.typeName)
  | none, d =>
    .error (if decimal then .numberRequired conversion d.typeName
      else .integerRequired conversion d.typeName)

/-- The floating-point number that a value gives to a floating-point conversion. -/
def floatOf (d : Datum) : Except TemplateError Binary64 :=
  match d.integer?, d with
  | some n, _ =>
    let x := Binary64.ofInt n
    if x.isInfinite then .error .floatTooLarge else .ok x
  | none, .float x => .ok x
  | none, d => .error (.floatRequired d.typeName)

/-- The value in a conversion. The place of the conversion in the template serves the error. -/
def convert (flags : Flags) (places : Option Nat) (conversion : CodePoint) (index : Nat)
    (d : Datum) : Except TemplateError Piece :=
  let cut (t : Text) : Piece := ⟨[], match places with
    | some n => t.take n
    | none => t, false⟩
  match conversion with
  | .scalar 's' => .ok (cut d.shown)
  | .scalar 'r' => .ok (cut d.quoted)
  | .scalar 'a' => .ok (cut d.quotedAscii)
  | .scalar 'c' =>
    match d.integer?, d with
    | some n, _ =>
      match if n < 0 then none else CodePoint.ofNat? n.toNat with
      | some c => .ok ⟨[], [c], false⟩
      | none => .error .characterOutOfRange
    | none, .text [c] => .ok ⟨[], [c], false⟩
    | none, _ => .error .characterRequired
  | .scalar c =>
    if c ∈ ['d', 'i', 'u', 'o', 'x', 'X'] then
      (integerOf c d).map (integerPiece flags (places.getD 0) c)
    else if c ∈ ['e', 'E', 'f', 'F', 'g', 'G'] then
      (floatOf d).map (floatPiece flags (places.getD 6) c)
    else .error (.unsupportedConversion conversion index)
  | c => .error (.unsupportedConversion c index)

/-- The message of a template with percent places. `total` is the length of the whole template. -/
def fill (total : Nat) : (fuel : Nat) → Supply → Text → Except TemplateError Text
  | 0, _, _ => .ok []
  | _ + 1, supply, [] => if supply.isUsedUp then .ok [] else .error .leftoverArguments
  | fuel + 1, supply, .scalar '%' :: .scalar '%' :: rest => do
    let t ← fill total fuel supply rest
    return .scalar '%' :: t
  | fuel + 1, supply, .scalar '%' :: rest => do
    let (supply, rest) ← match rest with
      | .scalar '(' :: rest => takeKeyed supply rest
      | rest => .ok (supply, rest)
    let (flags, rest) := takeFlags {} rest
    let (width, supply, rest) ← takeNumber widthBounds supply rest
    let flags := match width with
      | some (.negSucc _) => { flags with left := true }
      | _ => flags
    let (places, supply, rest) ← match rest with
      | .scalar '.' :: rest => do
        let (n, supply, rest) ← takeNumber precisionBounds supply rest
        pure (some ((n.getD 0).toNat), supply, rest)
      | rest => pure (none, supply, rest)
    let rest := match rest with
      | .scalar 'h' :: rest | .scalar 'l' :: rest | .scalar 'L' :: rest => rest
      | rest => rest
    match rest with
    | [] => .error .incompletePlace
    | c :: rest => do
      let (d, supply) ← supply.next
      let piece ← convert flags places c (total - rest.length - 1) d
      let t ← fill total fuel supply rest
      return piece.pad flags (width.getD 0).natAbs ++ t
  | fuel + 1, supply, c :: rest => do
    let t ← fill total fuel supply rest
    return c :: t

/-- The message of a template with percent places; without arguments it is the template itself. -/
def percent (arguments : List Datum) (template : Text) : Except TemplateError Text :=
  if arguments.isEmpty then .ok template
  else fill template.length (template.length + 1) (Supply.ofList arguments) template

end Template

end Bearer.Log
