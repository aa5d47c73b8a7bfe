import Bearer.Decimal.Shortest

/-! The written form of floating-point numbers: the digits are the shortest that read back, and a layout decides how
they and the exponent are placed. -/

namespace Bearer.Decimal

/-- The decisions of a format for floating-point numbers. -/
structure Layout where
  /-- The least leading exponent that is written positionally. -/
  leastPositional : Int
  /-- The first leading exponent, going up, that is no longer written positionally. -/
  endPositional : Int
  /-- The least number of digits in an exponent. -/
  exponentWidth : Nat
  infinity : String
  nan : String

/-- Numbers from 0.0001 up to, not including, 10000000000000000 are positional. -/
def plain : Layout := ⟨-4, 16, 2, "inf", "nan"⟩

/-- The plain layout with the names that documents of the JSON family use. -/
def document : Layout := { plain with infinity := "Infinity", nan := "NaN" }

/-- Digits with a point after the first `whole` of them and a zero where a side would be empty. -/
def positional (ds : Text) (whole : Int) : Text :=
  match whole with
  | .negSucc n => ("0." : Text) ++ List.replicate (n + 1) (.scalar '0') ++ ds
  | .ofNat 0 => ("0." : Text) ++ ds
  | .ofNat n =>
    let padded := ds ++ List.replicate (n - ds.length) (.scalar '0')
    let tail := padded.drop n
    padded.take n ++ ("." : Text) ++ (if tail.isEmpty then ("0" : Text) else tail)

/-- One digit, a point and the others if there are any, and the exponent. -/
def scientific (width : Nat) (ds : Text) (exponent : Int) : Text :=
  let mantissa := match ds with
    | [] => []
    | [d] => [d]
    | d :: rest => d :: .scalar '.' :: rest
  let sign : Text := if exponent < 0 then "-" else "+"
  mantissa ++ ("e" : Text) ++ sign ++ ofNatPadded width exponent.natAbs

/-- The magnitude of a finite number. -/
def magnitude (layout : Layout) (x : Binary64) : Text :=
  let s := x.shortest
  let ds := ofNat s.digits
  let leading := s.exponent + ds.length - 1
  if layout.leastPositional ≤ leading ∧ leading < layout.endPositional then
    positional ds (leading + 1)
  else scientific layout.exponentWidth ds leading

/-- A floating-point number in a layout. -/
def ofFloat (layout : Layout) (x : Binary64) : Text :=
  if x.isNaN then layout.nan
  else
    let sign : Text := if x.negative then "-" else ""
    sign ++ (if x.isInfinite then (layout.infinity : Text) else magnitude layout x)

end Bearer.Decimal
