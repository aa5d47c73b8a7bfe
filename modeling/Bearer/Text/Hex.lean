import Bearer.Text.CodePoint

/-! Numbers in base sixteen with a fixed number of digits, and the values of digits in either case. -/

namespace Bearer.Text

/-- The digit of value `n` below 16, in lower case. -/
def hexDigit (n : Nat) : CodePoint :=
  .scalar (if n < 10 then Char.ofNat (0x30 + n) else Char.ofNat (0x57 + n))

/-- The last `width` hexadecimal digits of a number. -/
def hex : (width : Nat) → Nat → Text
  | 0, _ => []
  | width + 1, n => hex width (n / 16) ++ [hexDigit (n % 16)]

/-- The value of a hexadecimal digit. -/
def hexValue? (c : CodePoint) : Option Nat :=
  let n := c.toNat
  if 0x30 ≤ n ∧ n ≤ 0x39 then some (n - 0x30)
  else if 0x61 ≤ n ∧ n ≤ 0x66 then some (n - 0x57)
  else if 0x41 ≤ n ∧ n ≤ 0x46 then some (n - 0x37)
  else none

theorem hexValue?_hexDigit (n : Nat) (h : n < 16) : hexValue? (hexDigit n) = some n := by
  revert n
  decide

end Bearer.Text
