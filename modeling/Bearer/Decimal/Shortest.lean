import Bearer.Decimal.Binary64

/-! Of the decimals that round to a given floating-point number, the one with the fewest digits. Each grid of decimals
is tried in turn, from one digit to seventeen. -/

namespace Bearer

/-- The decimal `digits * 10 ^ exponent`. -/
structure Scientific where
  digits : Nat
  exponent : Int
  deriving DecidableEq

namespace Scientific

/-- The decimal without zeros at the end of its digits. -/
def trimmed : (fuel : Nat) → Scientific → Scientific
  | 0, x => x
  | fuel + 1, x =>
    if x.digits ≠ 0 ∧ x.digits % 10 = 0 then trimmed fuel ⟨x.digits / 10, x.exponent + 1⟩ else x

end Scientific

namespace Binary64

/-- The positive numbers that round to a finite positive number: from `low` to `high` quarters of
its own unit, the number itself lying at `middle`; the ends belong to it if `closed`. -/
structure Interval where
  low : Nat
  middle : Nat
  high : Nat
  closed : Bool

/-- The interval of a finite positive number, in units of `2 ^ (scale - 2)`. Below a power of two
the next number is at half the distance. -/
def interval (x : Binary64) : Interval :=
  let m := x.significand
  ⟨if x.fraction.val = 0 ∧ 1 < x.exponent.val then 4 * m - 1 else 4 * m - 2, 4 * m, 4 * m + 2,
    m % 2 = 0⟩

/-- The fraction `n * 2 ^ power / 10 ^ grid`, as numerator and denominator. -/
def onGrid (n : Nat) (power grid : Int) : Nat × Nat :=
  let (num, den) := shifted n 1 power
  match grid with
  | .ofNat g => (num, den * Nat.pow 10 g)
  | .negSucc g => (num * Nat.pow 10 (g + 1), den)

/-- The decimal on the grid of multiples of `10 ^ grid` that rounds to the number, if there is one:
the nearer of two, the even one of two equally near. -/
def onGrid? (i : Interval) (power grid : Int) : Option Nat :=
  let (low, den) := onGrid i.low power grid
  let (middle, _) := onGrid i.middle power grid
  let (high, _) := onGrid i.high power grid
  let inside (k : Nat) : Bool :=
    if i.closed then low ≤ k * den && k * den ≤ high else low < k * den && k * den < high
  let below := middle / den
  let above := below + 1
  if inside below then
    if inside above then
      let twice := 2 * (middle - below * den)
      if twice < den then some below
      else if den < twice then some above
      else some (if below % 2 = 0 then below else above)
    else some below
  else if inside above then some above
  else none

/-- The exponent of the leading decimal digit of `n * 2 ^ power`, for every positive number. -/
def leadingExponent (n : Nat) (power : Int) : Int :=
  let (num, den) := onGrid n power (-400)
  ((Decimal.digits (num / den)).length : Int) - 401

/-- The first hit on the grids of `count`, `count + 1`, … digits. -/
def firstHit (i : Interval) (power leading : Int) : (tries : Nat) → (count : Nat) → Scientific
  | 0, count =>
    let grid := leading - count + 1
    let (num, den) := onGrid i.middle power grid
    ⟨num / den, grid⟩
  | tries + 1, count =>
    let grid := leading - count + 1
    match onGrid? i power grid with
    | some k => ⟨k, grid⟩
    | none => firstHit i power leading tries (count + 1)

/-- The shortest decimal that rounds to the magnitude of a finite number. -/
def shortest (x : Binary64) : Scientific :=
  if x.isZero then ⟨0, 0⟩
  else
    let i := x.interval
    let power := x.scale - 2
    Scientific.trimmed 20 (firstHit i power (leadingExponent i.middle power) 17 1)

end Binary64

end Bearer
