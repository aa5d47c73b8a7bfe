import Bearer.Decimal.Layout

/-! Floating-point numbers with a given number of digits. Rounding is that of the exact value, a tie going to the even
digit. -/

namespace Bearer.Decimal

/-- A magnitude with `places` digits behind the point; `keepPoint` writes a point without digits
behind it as well. -/
def fixed (places : Nat) (keepPoint : Bool) (x : Binary64) : Text :=
  let (num, den) := Binary64.onGrid x.significand x.scale (-(places : Int))
  let ds := ofNatPadded (places + 1) (Binary64.roundDiv num den)
  let whole := ds.take (ds.length - places)
  let fraction := ds.drop (ds.length - places)
  if fraction.isEmpty && !keepPoint then whole else whole ++ .scalar '.' :: fraction

/-- The `count` leading digits of a positive magnitude, rounded, and the exponent of the first. -/
def leadingDigits (count : Nat) (x : Binary64) : Nat × Int :=
  if x.isZero then (0, 0)
  else
    let leading := Binary64.leadingExponent x.significand x.scale
    let (num, den) := Binary64.onGrid x.significand x.scale (leading - count + 1)
    let k := Binary64.roundDiv num den
    if Nat.pow 10 count ≤ k then (k / 10, leading + 1) else (k, leading)

/-- Drops the zeros at the end of a fraction, and a point without digits behind it. -/
def dropTrailingZeros (t : Text) : Text :=
  if t.contains (.scalar '.') then
    Text.dropEndWhile (· == .scalar '.') (Text.dropEndWhile (· == .scalar '0') t)
  else t

/-- The exponent behind a mantissa. -/
def exponentSuffix (exponent : Int) : Text :=
  ("e" : Text) ++ (if exponent < 0 then ("-" : Text) else "+") ++ ofNatPadded 2 exponent.natAbs

/-- A mantissa of one digit in front of the point and `places` behind it. -/
def mantissa (places : Nat) (keepPoint : Bool) (k : Nat) : Text :=
  let ds := ofNatPadded (places + 1) k
  if places = 0 && !keepPoint then ds else ds.take 1 ++ .scalar '.' :: ds.drop 1

/-- A magnitude with `places` digits behind the point of the mantissa, and an exponent. -/
def exponential (places : Nat) (keepPoint : Bool) (x : Binary64) : Text :=
  let (k, exponent) := leadingDigits (places + 1) x
  mantissa places keepPoint k ++ exponentSuffix exponent

/-- A magnitude with `count` significant digits, positional while the exponent allows; `keepZeros`
keeps the zeros at the end, and `keepPlace` one digit behind the point of a positional number, for
which the exponent allows one less. -/
def general (count : Nat) (keepZeros keepPlace : Bool) (x : Binary64) : Text :=
  let count := max count 1
  let (k, exponent) := leadingDigits count x
  let trim (t : Text) : Text := if keepZeros then t else dropTrailingZeros t
  let endPositional : Int := if keepPlace then count - 1 else count
  if -4 ≤ exponent ∧ exponent < endPositional then
    let t := trim (fixed ((count : Int) - 1 - exponent).toNat keepZeros x)
    if keepPlace && !t.contains (.scalar '.') then t ++ (".0" : Text) else t
  else trim (mantissa (count - 1) keepZeros k) ++ exponentSuffix exponent

end Bearer.Decimal
