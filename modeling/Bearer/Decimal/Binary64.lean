import Bearer.Decimal.Digits

/-! Floating-point numbers of 64 bits. A number is kept by its three fields, so that every statement about it is one
about natural numbers. -/

namespace Bearer

/-- A floating-point number with 52 bits of fraction and 11 of exponent. -/
structure Binary64 where
  negative : Bool
  exponent : Fin 2048
  fraction : Fin 4503599627370496
  deriving DecidableEq

namespace Binary64

/-- The first number of the unit in which significands are counted: `2 ^ 52`. -/
def unit : Nat := 4503599627370496

def isNaN (x : Binary64) : Bool := x.exponent.val == 2047 && x.fraction.val != 0

def isInfinite (x : Binary64) : Bool := x.exponent.val == 2047 && x.fraction.val == 0

def isFinite (x : Binary64) : Bool := x.exponent.val != 2047

def isZero (x : Binary64) : Bool := x.exponent.val == 0 && x.fraction.val == 0

/-- The fields as one number of 63 bits, which grows with the magnitude. -/
def magnitude (x : Binary64) : Nat := x.exponent.val * unit + x.fraction.val

/-- The number with the given sign and magnitude bits; all beyond the largest finite number is
infinite. -/
def ofMagnitude (negative : Bool) (bits : Nat) : Binary64 :=
  if h : bits < 2047 * unit then
    ⟨negative, ⟨bits / unit, by simp only [unit] at *; omega⟩,
      ⟨bits % unit, by simp only [unit]; omega⟩⟩
  else ⟨negative, 2047, 0⟩

def infinity (negative : Bool) : Binary64 := ⟨negative, 2047, 0⟩

/-- The quiet number that stands for an undefined result. -/
def nan : Binary64 := ⟨false, 2047, ⟨2251799813685248, by decide⟩⟩

/-- All 64 bits as one number. -/
def toBits (x : Binary64) : Nat := (if x.negative then 2048 * unit else 0) + x.magnitude

/-- A finite number is `significand * 2 ^ scale`, the sign apart. -/
def significand (x : Binary64) : Nat :=
  if x.exponent.val = 0 then x.fraction.val else unit + x.fraction.val

/-- The power of two that goes with `significand`. -/
def scale (x : Binary64) : Int :=
  if x.exponent.val = 0 then -1074 else (x.exponent.val : Int) - 1075

/-- The quotient rounded to the nearest whole number, a tie to the even one. -/
def roundDiv (num den : Nat) : Nat :=
  let q := num / den
  let twice := 2 * (num % den)
  if twice < den then q
  else if den < twice then q + 1
  else if q % 2 = 0 then q else q + 1

/-- The fraction `num / den` times a power of two, as numerator and denominator. -/
def shifted (num den : Nat) (power : Int) : Nat × Nat :=
  match power with
  | .ofNat p => (num * Nat.pow 2 p, den)
  | .negSucc p => (num, den * Nat.pow 2 (p + 1))

/-- The whole number `k` with `2 ^ k ≤ num / den < 2 ^ (k + 1)`, for a positive fraction. -/
def floorLog2 (num den : Nat) : Int :=
  let guess := (num.log2 : Int) - den.log2
  let (n, d) := shifted num den (-guess)
  if d ≤ n then guess else guess - 1

/-- The number nearest to `num / den`. -/
def ofRatio (negative : Bool) (num den : Nat) : Binary64 :=
  if num = 0 then ofMagnitude negative 0
  else
    let scale := max (floorLog2 num den - 52) (-1074)
    let (n, d) := shifted num den (-scale)
    ofMagnitude negative ((scale + 1074).toNat * unit + roundDiv n d)

/-- The number nearest to `digits * 10 ^ exponent`. The two early cases are those beyond the
largest and below the least number, whatever the digits. -/
def ofDecimal (negative : Bool) (number : Nat) (exponent : Int) : Binary64 :=
  if number = 0 then ofMagnitude negative 0
  else
    let top := (Decimal.digits number).length + exponent
    if 310 < top then infinity negative
    else if top < -330 then ofMagnitude negative 0
    else match exponent with
      | .ofNat e => ofRatio negative (number * Nat.pow 10 e) 1
      | .negSucc e => ofRatio negative number (Nat.pow 10 (e + 1))

/-- The number nearest to an integer. -/
def ofInt (n : Int) : Binary64 := ofRatio (n < 0) n.natAbs 1

/-- Whether a number lies at zero or below it; false of what is not a number. -/
def isNonPositive (x : Binary64) : Bool := !x.isNaN && (x.negative || x.isZero)

/-- The integer that a finite number without fractional part is equal to. -/
def toInt? (x : Binary64) : Option Int :=
  if x.isFinite then
    let whole : Option Nat := match x.scale with
      | .ofNat s => some (x.significand * Nat.pow 2 s)
      | .negSucc s =>
        let unit := Nat.pow 2 (s + 1)
        if x.significand % unit = 0 then some (x.significand / unit) else none
    whole.map fun n => if x.negative then -(n : Int) else n
  else none

end Binary64

end Bearer
