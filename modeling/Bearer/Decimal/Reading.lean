import Bearer.Decimal.Binary64

/-! The grammar of the numbers that settings are written with. Blanks around a number do not count, and single
underscores may stand between digits. Integers may end in a point and zeros. -/

namespace Bearer.Decimal

/-- The blanks that may surround a number. -/
def isBlank (c : CodePoint) : Bool :=
  let n := c.toNat
  (0x09 ≤ n && n ≤ 0x0D) || n == 0x20 || n == 0x85 || n == 0xA0 || n == 0x1680
    || (0x2000 ≤ n && n ≤ 0x200A) || n == 0x2028 || n == 0x2029 || n == 0x202F || n == 0x205F
    || n == 0x3000

/-- A sign at the head of a text: whether it is a minus, and the rest. -/
def takeSign : Text → Bool × Text
  | .scalar '-' :: rest => (true, rest)
  | .scalar '+' :: rest => (false, rest)
  | t => (false, t)

/-- Whether no underscore stands at an end or beside another one. -/
def underscoresSingle : Text → Bool
  | [] => false
  | [c] => c != .scalar '_'
  | c :: d :: rest =>
    if c = .scalar '_' then false
    else if d = .scalar '_' then underscoresSingle rest
    else underscoresSingle (d :: rest)

/-- The text without its underscores, which must stand singly inside it. -/
def withoutUnderscores? (t : Text) : Option Text :=
  if underscoresSingle t then some (t.filter (· != .scalar '_')) else none

/-- Digits alone, at least one. -/
def natOfDigits? (t : Text) : Option Nat :=
  match takeDigits t with
  | ([], _) => none
  | (ds, []) => some (ofDigits ds)
  | _ => none

/-- The integer part of a text that ends in a point followed by zeros only. -/
def dropZeroFraction (t : Text) : Text :=
  match Text.cut? (.scalar '.') t with
  | some (whole, fraction) => if fraction.all (· == .scalar '0') then whole else t
  | none => t

/-- The greatest length of a text that is read as an integer. -/
def maxIntegerLength : Nat := 4300

/-- The integer that a text denotes. -/
def readInt? (t : Text) : Option Int :=
  let (negative, body) := takeSign (t.trim isBlank)
  (withoutUnderscores? (dropZeroFraction body)).bind fun body =>
    (natOfDigits? body).map fun n => if negative then -(n : Int) else n

/-- Letters in lower case, for the ASCII letters alone. -/
def lowerAscii : Text → Text :=
  List.map fun
    | .scalar c => .scalar c.toLower
    | c => c

/-- Digits with at most one point and an optional exponent, the sign having been read. -/
def readMagnitude? (negative : Bool) (t : Text) : Option Binary64 :=
  let (whole, rest) := takeDigits t
  let (fraction, rest) := match rest with
    | .scalar '.' :: rest => takeDigits rest
    | rest => ([], rest)
  if whole.isEmpty && fraction.isEmpty then none
  else
    let number := ofDigits (whole ++ fraction)
    let scale : Int := -(fraction.length : Int)
    match rest with
    | [] => some (Binary64.ofDecimal negative number scale)
    | .scalar e :: rest =>
      if e = 'e' ∨ e = 'E' then
        let (down, rest) := takeSign rest
        (natOfDigits? rest).map fun exponent =>
          Binary64.ofDecimal negative number
            (scale + (if down then -(exponent : Int) else exponent))
      else none
    | _ => none

/-- A floating-point number without blanks or underscores. -/
def readSigned? (t : Text) : Option Binary64 :=
  let (negative, body) := takeSign t
  let name := lowerAscii body
  if name = Text.ofString "inf" ∨ name = Text.ofString "infinity" then
    some (Binary64.infinity negative)
  else if name = Text.ofString "nan" then some { Binary64.nan with negative }
  else readMagnitude? negative body

/-- The floating-point number that a text denotes. -/
def readFloat? (t : Text) : Option Binary64 :=
  match readSigned? (t.trim isBlank) with
  | some x => some x
  | none =>
    if t.contains (.scalar '_') then (withoutUnderscores? t).bind readSigned? else none

end Bearer.Decimal
