import Bearer.Text.Utf8

/-! The `application/x-www-form-urlencoded` format: pairs joined with `&`, name and value with `=`. -/

namespace Bearer.Form

/-- The bytes that stand for themselves. -/
def isUnreserved (b : UInt8) : Bool :=
  (0x30 ≤ b && b ≤ 0x39) || (0x41 ≤ b && b ≤ 0x5A) || (0x61 ≤ b && b ≤ 0x7A)
    || b == 0x5F || b == 0x2E || b == 0x2D || b == 0x7E

/-- The digit of a value below sixteen, in upper case. -/
def hexByte (n : Nat) : UInt8 := UInt8.ofNat (if n < 10 then 0x30 + n else 0x37 + n)

/-- The two digits of a byte behind a percent sign. -/
def percent (b : UInt8) : Bytes := [0x25, hexByte (b.toNat / 16), hexByte (b.toNat % 16)]

/-- The written form of one byte. -/
def encodeByte (b : UInt8) : Bytes :=
  if isUnreserved b then [b] else if b = 0x20 then [0x2B] else percent b

/-- The written form of a name or value. -/
def encodeText (t : Text) : Except EncodeFault Bytes := do
  let bytes ← Utf8.encode t
  return bytes.flatMap encodeByte

/-- The written form of one pair. -/
def encodePair (name value : Text) : Except EncodeFault Bytes := do
  let name ← encodeText name
  let value ← encodeText value
  return name ++ 0x3D :: value

/-- The body with the given pairs. -/
def encode : List (Text × Text) → Except EncodeFault Bytes
  | [] => .ok []
  | [(name, value)] => encodePair name value
  | (name, value) :: rest => do
    let first ← encodePair name value
    let others ← encode rest
    return first ++ 0x26 :: others

/-- The value of a hexadecimal digit. -/
def hexValue? (b : UInt8) : Option Nat :=
  let n := b.toNat
  if 0x30 ≤ n ∧ n ≤ 0x39 then some (n - 0x30)
  else if 0x41 ≤ n ∧ n ≤ 0x46 then some (n - 0x37)
  else if 0x61 ≤ n ∧ n ≤ 0x66 then some (n - 0x57)
  else none

/-- Undoes `encodeByte` along a sequence; a percent sign without two digits stands for itself. -/
def decodeBytes : Bytes → Bytes
  | [] => []
  | 0x2B :: rest => 0x20 :: decodeBytes rest
  | 0x25 :: a :: b :: rest =>
    match hexValue? a, hexValue? b with
    | some high, some low => UInt8.ofNat (high * 16 + low) :: decodeBytes rest
    | _, _ => 0x25 :: decodeBytes (a :: b :: rest)
  | b :: rest => b :: decodeBytes rest

/-- The pieces of a byte sequence between the occurrences of one byte. -/
def splitBytes (separator : UInt8) : Bytes → List Bytes
  | [] => [[]]
  | b :: rest =>
    if b = separator then [] :: splitBytes separator rest
    else match splitBytes separator rest with
      | [] => [[b]]
      | piece :: pieces => (b :: piece) :: pieces

/-- The name and value of one pair, cut at the first `=`; a pair without one has a blank value. -/
def decodePair (pair : Bytes) : Except Utf8.DecodeFault (Text × Text) := do
  let name ← Utf8.decode (decodeBytes (pair.takeWhile (· != 0x3D)))
  let value ← Utf8.decode (decodeBytes ((pair.dropWhile (· != 0x3D)).drop 1))
  return (name, value)

/-- The pairs of a body, blank values kept. -/
def decode (body : Bytes) : Except Utf8.DecodeFault (List (Text × Text)) :=
  if body.isEmpty then .ok [] else (splitBytes 0x26 body).mapM decodePair

end Bearer.Form
