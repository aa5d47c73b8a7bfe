import Bearer.Decimal.Numeral
import Bearer.Log.Template

/-! A format says how a value is written: filled up to a width, with a sign, with its digits in groups, with a number
of places, and in a conversion. Which of these may be asked for depends on the value. -/

namespace Bearer.Log

/-- What a format may ask for and a value may not admit. -/
inductive FormatFeature where
  | sign
  | blankSign
  | unsignedZero
  | alternate
  | innerAlignment
  | precision

/-- Why a value has no form in a format. -/
inductive FormatError where
  | tooManyDigits
  | twoSeparators
  | needlessSeparator (separator : Char) (conversion : CodePoint)
  | missingPrecision
  | malformed (given typeName : Text)
  | unknownConversion (conversion : CodePoint) (typeName : Text)
  | notForText (feature : FormatFeature)
  | notForInteger (feature : FormatFeature)
  | notForCharacter (feature : FormatFeature)
  | precisionTooBig
  | characterOutOfRange
  | characterTooLarge
  | integerTooLarge
  | unsupported (typeName : Text)

namespace FormatFeature

def name : FormatFeature → Text
  | sign => "Sign"
  | blankSign => "Space"
  | unsignedZero => "Negative zero coercion (z)"
  | alternate => "Alternate form (#)"
  | innerAlignment => "'=' alignment"
  | precision => "Precision"

end FormatFeature

namespace FormatError

/-- The kind of an error. -/
def kind : FormatError → Text
  | characterOutOfRange | characterTooLarge | integerTooLarge => "OverflowError"
  | unsupported _ => "TypeError"
  | _ => "ValueError"

/-- A conversion as errors name it: one that is not printable ASCII by its number. -/
def conversionName (c : CodePoint) : Text :=
  if 32 < c.toNat ∧ c.toNat < 128 then [c]
  else ("\\x" : Text) ++ (Text.hex 6 c.toNat).dropWhile (· == .scalar '0')

def message : FormatError → Text
  | tooManyDigits => "Too many decimal digits in format string"
  | twoSeparators => "Cannot specify both ',' and '_'."
  | needlessSeparator separator conversion =>
    ("Cannot specify '" : Text) ++ [.scalar separator] ++ ("' with '" : Text)
      ++ conversionName conversion ++ ("'." : Text)
  | missingPrecision => "Format specifier missing precision"
  | malformed given typeName =>
    ("Invalid format specifier '" : Text) ++ given ++ ("' for object of type '" : Text) ++ typeName
      ++ ("'" : Text)
  | unknownConversion conversion typeName =>
    ("Unknown format code '" : Text) ++ conversionName conversion
      ++ ("' for object of type '" : Text) ++ typeName ++ ("'" : Text)
  | notForText feature => feature.name ++ (" not allowed in string format specifier" : Text)
  | notForInteger feature => feature.name ++ (" not allowed in integer format specifier" : Text)
  | notForCharacter feature =>
    feature.name ++ (" not allowed with integer format specifier 'c'" : Text)
  | precisionTooBig => "precision too big"
  | characterOutOfRange => "%c arg not in range(0x110000)"
  | characterTooLarge => "Python int too large to convert to C long"
  | integerTooLarge => "int too large to convert to float"
  | unsupported typeName =>
    ("unsupported format string passed to " : Text) ++ typeName ++ (".__format__" : Text)

end FormatError

/-- Where a value that is narrower than its width stands; `inner` fills between the sign and the
digits of a number. -/
inductive Alignment where
  | left
  | right
  | center
  | inner
  deriving DecidableEq

namespace Alignment

def ofPoint? : CodePoint → Option Alignment
  | .scalar '<' => some left
  | .scalar '>' => some right
  | .scalar '^' => some center
  | .scalar '=' => some inner
  | _ => none

end Alignment

/-- How a value is written. Without a conversion a value is written in the way of its kind. -/
structure Format where
  fill : CodePoint
  alignment : Alignment
  sign : Option CodePoint
  unsignedZero : Bool
  alternate : Bool
  width : Nat
  separator : Option Char
  precision : Option Nat
  conversion : Option CodePoint

namespace Format

/-- The number whose digits, of any script, a text begins with, and the rest of the text. -/
def takeCount (t : Text) : Except FormatError (Option Nat × Text) :=
  let (ds, rest) := Decimal.takeDigits (t.map Decimal.asciiDigit)
  let n := Decimal.ofDigits ds
  if ds.isEmpty then .ok (none, t)
  else if n ≤ 9223372036854775807 then .ok (some n, t.drop (t.length - rest.length))
  else .error .tooManyDigits

/-- The first code point if it satisfies `p`, and the rest of the text. -/
def takeOne (p : CodePoint → Bool) : Text → Option CodePoint × Text
  | [] => (none, [])
  | c :: rest => if p c then (some c, rest) else (none, c :: rest)

/-- The fill and the alignment that a text begins with. -/
def takeAlignment : Text → Option CodePoint × Option Alignment × Text
  | c :: a :: rest =>
    match Alignment.ofPoint? a, Alignment.ofPoint? c with
    | some alignment, _ => (some c, some alignment, rest)
    | none, some alignment => (none, some alignment, a :: rest)
    | none, none => (none, none, c :: a :: rest)
  | [c] =>
    match Alignment.ofPoint? c with
    | some alignment => (none, some alignment, [])
    | none => (none, none, [c])
  | [] => (none, none, [])

/-- The separator of groups that a text begins with. -/
def takeSeparator : Text → Except FormatError (Option Char × Text)
  | .scalar ',' :: .scalar '_' :: _ | .scalar '_' :: .scalar ',' :: _ => .error .twoSeparators
  | .scalar ',' :: rest => .ok (some ',', rest)
  | .scalar '_' :: rest => .ok (some '_', rest)
  | t => .ok (none, t)

/-- The precision behind a point that a text begins with. -/
def takePrecision : Text → Except FormatError (Option Nat × Text)
  | .scalar '.' :: rest => do
    match ← takeCount rest with
    | (none, _) => .error .missingPrecision
    | (some n, rest) => return (some n, rest)
  | t => .ok (none, t)

/-- The conversions whose digits may be put in groups. -/
def grouped : List CodePoint := "deEfFgG%".toList.map .scalar

/-- The conversions to other bases than ten, whose groups are marked by underscores alone. -/
def based : List CodePoint := "boxX".toList.map .scalar

/-- Refuses a separator for a conversion whose digits are not put in groups. -/
def checkSeparator (separator : Option Char) (conversion : Option CodePoint) :
    Except FormatError Unit :=
  match separator, conversion with
  | some s, some c =>
    if grouped.contains c || (s == '_' && based.contains c) then .ok ()
    else .error (.needlessSeparator s c)
  | _, _ => .ok ()

/-- The format with a written form, for values of a type. The conversion and the alignment by
default depend on whether the values are texts. -/
def read (forText : Bool) (typeName : Text) (t : Text) : Except FormatError Format := do
  let (fill, alignment, rest) := takeAlignment t
  let (sign, rest) := takeOne (fun c => c = .scalar '+' || c = .scalar '-' || c = .scalar ' ') rest
  let (unsignedZero, rest) := takeOne (· = .scalar 'z') rest
  let (alternate, rest) := takeOne (· = .scalar '#') rest
  let (zeros, rest) := takeOne (fun c => fill.isNone && c = .scalar '0') rest
  let (width, rest) ← takeCount rest
  let (separator, rest) ← takeSeparator rest
  let (precision, rest) ← takePrecision rest
  let conversion ← match rest with
    | [] => pure none
    | [c] => pure (some c)
    | _ => throw (.malformed t typeName)
  checkSeparator separator
    (if forText then some (conversion.getD (.scalar 's')) else conversion)
  return {
    fill := fill.getD (zeros.getD (.scalar ' '))
    alignment := alignment.getD
      (if forText then .left else if zeros.isSome then .inner else .right)
    sign
    unsignedZero := unsignedZero.isSome
    alternate := alternate.isSome
    width := width.getD 0
    separator
    precision
    conversion }

/-- A text in a width; `left` stands in front of what fills an inner alignment. -/
def align (f : Format) (left body : Text) : Text :=
  let missing := f.width - (left.length + body.length)
  let filling (n : Nat) : Text := List.replicate n f.fill
  match f.alignment with
  | .left => left ++ body ++ filling missing
  | .right => filling missing ++ left ++ body
  | .center => filling (missing / 2) ++ left ++ body ++ filling (missing - missing / 2)
  | .inner => left ++ filling missing ++ body

/-- A text in a format. -/
def writeText (f : Format) (t : Text) : Except FormatError Text :=
  match f.conversion with
  | none | some (.scalar 's') =>
    match f.sign with
    | some (.scalar ' ') => .error (.notForText .blankSign)
    | some _ => .error (.notForText .sign)
    | none =>
      if f.unsignedZero then .error (.notForText .unsignedZero)
      else if f.alternate then .error (.notForText .alternate)
      else if f.alignment = .inner then .error (.notForText .innerAlignment)
      else .ok (f.align [] (match f.precision with
        | some n => t.take n
        | none => t))
  | some c => .error (.unknownConversion c "str")

/-- A number in parts: whether it is negative, the mark of its base, the digits that are put in
groups, and what follows them. -/
structure Number where
  negative : Bool
  mark : Text := []
  digits : Text
  rest : Text := []

/-- Digits, the last one first, in groups, with zeros in front so that the text is at least
`least` wide. -/
def groupReversed (size : Nat) (separator : CodePoint) (reversed : Text) (least : Nat) : Text :=
  let length := min (size + 1) (max (max reversed.length least) 1)
  let group := reversed.take length
  let zeros : Text := List.replicate (length - group.length) (.scalar '0')
  let restLength := reversed.length - length
  let restLeast := least - length
  if restLength = 0 ∧ restLeast = 0 then group ++ zeros
  else group ++ zeros ++ separator :: groupReversed size separator (reversed.drop length)
    (restLeast - 1)
termination_by reversed.length + least
decreasing_by
  simp only [List.length_drop]
  omega

/-- Digits in groups of `size + 1`, with zeros in front so that the text is at least `least`
wide. -/
def group (size : Nat) (separator : CodePoint) (digits : Text) (least : Nat) : Text :=
  (groupReversed size separator digits.reverse least).reverse

/-- A number in a format. Groups are four digits long in bases that are powers of two. -/
def writeNumber (f : Format) (n : Number) : Text :=
  let sign : Text := match f.sign with
    | some (.scalar '+') => if n.negative then "-" else "+"
    | some (.scalar ' ') => if n.negative then "-" else " "
    | _ => if n.negative then "-" else ""
  let around := sign.length + n.mark.length + n.rest.length
  let least := if f.fill = .scalar '0' ∧ f.alignment = .inner then f.width - around else 0
  let size := match f.conversion with
    | some c => if based.contains c then 3 else 2
    | none => 2
  let digits := match f.separator with
    | some separator => if n.digits.isEmpty then [] else group size (.scalar separator) n.digits least
    | none => n.digits
  f.align (sign ++ n.mark) (digits ++ n.rest)

/-- An integer in a conversion to a character. -/
def writeCharacter (f : Format) (n : Int) : Except FormatError Text :=
  if f.sign.isSome then .error (.notForCharacter .sign)
  else if f.alternate then .error (.notForCharacter .alternate)
  else if n < -9223372036854775808 ∨ 9223372036854775807 < n then .error .characterTooLarge
  else match if n < 0 then none else CodePoint.ofNat? n.toNat with
    | some c => .ok (f.writeNumber { negative := false, digits := [], rest := [c] })
    | none => .error .characterOutOfRange

/-- The digits of a number in a conversion, and the mark of the base. -/
def baseDigits (conversion : Option CodePoint) (n : Nat) : Text × Text :=
  match conversion with
  | some (.scalar 'b') => ("0b", Template.inBase 2 n)
  | some (.scalar 'o') => ("0o", Template.inBase 8 n)
  | some (.scalar 'x') => ("0x", Template.inBase 16 n)
  | some (.scalar 'X') => ("0X", Template.upperAscii (Template.inBase 16 n))
  | _ => ([], Decimal.ofNat n)

/-- The conversions of integers. -/
def integral : List CodePoint := "bcdnoxX".toList.map .scalar

/-- The conversions of floating-point numbers. -/
def fractional : List CodePoint := "eEfFgGn%".toList.map .scalar

/-- An integer in a conversion of integers. -/
def writeInteger (f : Format) (n : Int) : Except FormatError Text :=
  if f.precision.isSome then .error (.notForInteger .precision)
  else if f.unsignedZero then .error (.notForInteger .unsignedZero)
  else if f.conversion = some (.scalar 'c') then f.writeCharacter n
  else
    let (mark, digits) := baseDigits f.conversion n.natAbs
    .ok (f.writeNumber { negative := n < 0, mark := if f.alternate then mark else [], digits })

/-- A hundred times a number. -/
def hundredfold (x : Binary64) : Binary64 :=
  if x.isFinite then
    let (num, den) := Binary64.shifted (100 * x.significand) 1 x.scale
    Binary64.ofRatio x.negative num den
  else x

/-- The shortest form of a magnitude; the alternate form has a point in front of an exponent. -/
def plainMagnitude (alternate : Bool) (x : Binary64) : Text :=
  let t := Decimal.magnitude Decimal.plain x
  if alternate && !t.contains (.scalar '.') then
    t.takeWhile CodePoint.isDigit ++ .scalar '.' :: t.dropWhile CodePoint.isDigit
  else t

/-- A finite magnitude in a format. -/
def magnitude (f : Format) (x : Binary64) : Text :=
  let places := f.precision.getD 6
  match f.conversion with
  | none =>
    match f.precision with
    | none => plainMagnitude f.alternate x
    | some count => Decimal.general count f.alternate true x
  | some (.scalar 'e') => Decimal.exponential places f.alternate x
  | some (.scalar 'E') => Template.upperAscii (Decimal.exponential places f.alternate x)
  | some (.scalar 'f') | some (.scalar 'F') => Decimal.fixed places f.alternate x
  | some (.scalar '%') => Decimal.fixed places f.alternate x
  | some (.scalar 'G') => Template.upperAscii (Decimal.general places f.alternate false x)
  | some _ => Decimal.general places f.alternate false x

/-- The names of the numbers that have no digits. -/
def specialName (f : Format) (x : Binary64) : Text :=
  let name : Text := if x.isNaN then "nan" else "inf"
  match f.conversion with
  | some (.scalar 'E') | some (.scalar 'F') | some (.scalar 'G') => Template.upperAscii name
  | _ => name

/-- Whether a written magnitude has no digit but zeros in front of its exponent. -/
def readsZero (t : Text) : Bool :=
  (t.takeWhile fun c => c != .scalar 'e' && c != .scalar 'E').all fun c =>
    c == .scalar '0' || c == .scalar '.'

/-- A floating-point number in a format. -/
def writeFloat (f : Format) (x : Binary64) : Except FormatError Text :=
  if f.precision.any (2147483647 < ·) then .error .precisionTooBig
  else
    let isPercentage := f.conversion = some (.scalar '%')
    let x := if isPercentage then hundredfold x else x
    let t := if x.isFinite then f.magnitude x else f.specialName x
    .ok (f.writeNumber {
      negative := x.negative && !x.isNaN && !(f.unsignedZero && x.isFinite && readsZero t)
      digits := t.takeWhile CodePoint.isDigit
      rest := t.dropWhile CodePoint.isDigit ++ if isPercentage then ("%" : Text) else [] })

/-- A number in a conversion of its own kind or, for an integer, of floating-point numbers. -/
def writeNumeric (f : Format) (d : Datum) : Except FormatError Text :=
  match d.integer?, d with
  | some n, _ =>
    match f.conversion with
    | none => f.writeInteger n
    | some c =>
      if integral.contains c then f.writeInteger n
      else if fractional.contains c then
        let x := Binary64.ofInt n
        if f.precision.any (2147483647 < ·) then .error .precisionTooBig
        else if x.isInfinite then .error .integerTooLarge
        else f.writeFloat x
      else .error (.unknownConversion c d.typeName)
  | none, .float x =>
    match f.conversion with
    | none => f.writeFloat x
    | some c =>
      if fractional.contains c then f.writeFloat x else .error (.unknownConversion c d.typeName)
  | none, _ => .error (.unsupported d.typeName)

end Format

namespace Datum

/-- A value in a written format. The empty format is that for readers. -/
def formatted (format : Text) (d : Datum) : Except FormatError Text :=
  if format.isEmpty then .ok d.shown
  else match d with
    | text t => do (← Format.read true d.typeName format).writeText t
    | bool _ | int _ | float _ => do (← Format.read false d.typeName format).writeNumeric d
    | null | instant _ | list _ | mapping _ => .error (.unsupported d.typeName)

end Datum

end Bearer.Log
