import Bearer.Text.Utf8

/-! Bytes in base 64: three bytes become four characters, and at the end `=` stands for what is missing. -/

namespace Bearer.Base64

/-- The character of a value below 64. -/
def digit (n : Nat) : CodePoint :=
  .scalar (Char.ofNat
    (if n < 26 then 0x41 + n
     else if n < 52 then 0x61 + (n - 26)
     else if n < 62 then 0x30 + (n - 52)
     else if n = 62 then 0x2B
     else 0x2F))

/-- The written form of bytes. -/
def encode : Bytes → Text
  | [] => []
  | [a] =>
    let n := a.toNat * 16
    [digit (n / 64), digit (n % 64), .scalar '=', .scalar '=']
  | [a, b] =>
    let n := (a.toNat * 256 + b.toNat) * 4
    [digit (n / 4096), digit (n / 64 % 64), digit (n % 64), .scalar '=']
  | a :: b :: c :: rest =>
    let n := (a.toNat * 256 + b.toNat) * 256 + c.toNat
    [digit (n / 262144), digit (n / 4096 % 64), digit (n / 64 % 64), digit (n % 64)]
      ++ encode rest

end Bearer.Base64
