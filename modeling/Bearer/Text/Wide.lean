import Bearer.Text.Utf8

/-! Readers for UTF-16 and UTF-32, in either byte order. Lone surrogates are let through. -/

namespace Bearer

/-- The order of the bytes in one unit. -/
inductive ByteOrder where
  | little
  | big
  deriving DecidableEq

/-- Why a sequence of wide units is ill-formed, and the bytes concerned. -/
structure WideFault where
  start : Nat
  bytes : Bytes
  outOfRange : Bool
  deriving DecidableEq

namespace Utf16

/-- The number of one two-byte unit. -/
def unit (order : ByteOrder) (first second : UInt8) : Nat :=
  match order with
  | .little => second.toNat * 256 + first.toNat
  | .big => first.toNat * 256 + second.toNat

/-- The two-byte units of a byte sequence; an odd byte at the end is a fault. -/
def units (order : ByteOrder) (start : Nat) : Bytes → Except WideFault (List Nat)
  | [] => .ok []
  | [b] => .error ⟨start, [b], false⟩
  | first :: second :: rest =>
    (units order (start + 2) rest).map (unit order first second :: ·)

/-- The code point of a surrogate pair, given by the numbers of its halves. -/
def joinPair (high low : Nat) : Option CodePoint :=
  CodePoint.ofNat? (0x10000 + (high - 0xD800) * 0x400 + (low - 0xDC00))

/-- Joins surrogate pairs; a surrogate without its partner stays alone. -/
def ofUnits : List Nat → Text
  | [] => []
  | [u] => (CodePoint.ofNat? u).toList
  | u :: v :: rest =>
    if 0xD800 ≤ u ∧ u < 0xDC00 ∧ 0xDC00 ≤ v ∧ v < 0xE000 then
      (joinPair u v).toList ++ ofUnits rest
    else (CodePoint.ofNat? u).toList ++ ofUnits (v :: rest)

/-- The units of a code point: itself, or a surrogate pair above U+FFFF. -/
def toUnits (c : CodePoint) : List Nat :=
  let n := c.toNat
  if n < 0x10000 then [n] else [0xD800 + (n - 0x10000) / 0x400, 0xDC00 + (n - 0x10000) % 0x400]

/-- Reads bytes from position `start` on, up to the first fault. -/
def decode (order : ByteOrder) (start : Nat) (bytes : Bytes) : Except WideFault Text :=
  (units order start bytes).map ofUnits

end Utf16

namespace Utf32

/-- The number of one four-byte unit. -/
def unit (order : ByteOrder) (a b c d : UInt8) : Nat :=
  match order with
  | .little => ((d.toNat * 256 + c.toNat) * 256 + b.toNat) * 256 + a.toNat
  | .big => ((a.toNat * 256 + b.toNat) * 256 + c.toNat) * 256 + d.toNat

/-- Reads bytes from position `start` on, up to the first fault. -/
def decode (order : ByteOrder) (start : Nat) : Bytes → Except WideFault Text
  | [] => .ok []
  | a :: b :: c :: d :: rest =>
    match CodePoint.ofNat? (unit order a b c d) with
    | some point => (decode order (start + 4) rest).map (point :: ·)
    | none => .error ⟨start, [a, b, c, d], true⟩
  | tail => .error ⟨start, tail, false⟩

end Utf32

end Bearer
