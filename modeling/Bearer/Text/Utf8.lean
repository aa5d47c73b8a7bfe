import Bearer.Text.CodePoint

/-! Encoding refuses surrogates. Decoding stops at the first fault, or lets surrogates through, or puts U+FFFD in the
place of each fault. -/

namespace Bearer

/-- A sequence of bytes. -/
abbrev Bytes := List UInt8

/-- Texts that an encoding can not carry: the run of surrogates at `start`, the first of the text. -/
structure EncodeFault where
  start : Nat
  length : Nat
  first : CodePoint
  deriving DecidableEq

namespace Utf8

/-- The bytes of one character, one to four. -/
def encodeChar (c : Char) : Bytes :=
  let n := c.toNat
  if n < 0x80 then [UInt8.ofNat n]
  else if n < 0x800 then [UInt8.ofNat (0xC0 + n / 64), UInt8.ofNat (0x80 + n % 64)]
  else if n < 0x10000 then
    [UInt8.ofNat (0xE0 + n / 4096), UInt8.ofNat (0x80 + n / 64 % 64), UInt8.ofNat (0x80 + n % 64)]
  else
    [UInt8.ofNat (0xF0 + n / 262144), UInt8.ofNat (0x80 + n / 4096 % 64),
      UInt8.ofNat (0x80 + n / 64 % 64), UInt8.ofNat (0x80 + n % 64)]

/-- The number of bytes that a code point takes; a surrogate would take three. -/
def size : CodePoint → Nat
  | .scalar c => (encodeChar c).length
  | .surrogate _ => 3

/-- The number of bytes that a text takes. -/
def length (t : Text) : Nat := t.foldr (fun c n => size c + n) 0

/-- The first run of surrogates in a text, looked for from position `start` on. -/
def encodeFault? (start : Nat) : Text → Option EncodeFault
  | [] => none
  | .scalar _ :: rest => encodeFault? (start + 1) rest
  | .surrogate offset :: rest =>
    some ⟨start, 1 + (rest.takeWhile CodePoint.isSurrogate).length, .surrogate offset⟩

/-- The bytes of a text, unless it holds a surrogate. -/
def encode (t : Text) : Except EncodeFault Bytes :=
  match encodeFault? 0 t with
  | some fault => .error fault
  | none => .ok (t.flatMap fun
      | .scalar c => encodeChar c
      | .surrogate _ => [])

/-- Why a sequence of bytes is ill-formed. -/
inductive Fault where
  | invalidStart
  | invalidContinuation
  | truncated
  deriving DecidableEq

/-- What stands at one place of a byte sequence. Both cases count the bytes that belong to it
beyond the first one. -/
inductive Piece where
  | char (c : Char) (more : Nat)
  | fault (why : Fault) (more : Nat)

/-- The shape that a leading byte announces: how many continuation bytes follow, which values the
first of them may have, and the bits that the leading byte contributes. -/
structure Lead where
  count : Nat
  low : Nat
  high : Nat
  bits : Nat

/-- The shape announced by a leading byte of two or more; bytes that begin no character have none.
The narrowed ranges leave out overlong forms, surrogates and numbers above U+10FFFF. -/
def lead? (n : Nat) : Option Lead :=
  if 0xC2 ≤ n ∧ n ≤ 0xDF then some ⟨1, 0x80, 0xBF, n - 0xC0⟩
  else if n = 0xE0 then some ⟨2, 0xA0, 0xBF, 0⟩
  else if n = 0xED then some ⟨2, 0x80, 0x9F, 0xD⟩
  else if 0xE1 ≤ n ∧ n ≤ 0xEF then some ⟨2, 0x80, 0xBF, n - 0xE0⟩
  else if n = 0xF0 then some ⟨3, 0x90, 0xBF, 0⟩
  else if n = 0xF4 then some ⟨3, 0x80, 0x8F, 4⟩
  else if 0xF1 ≤ n ∧ n ≤ 0xF3 then some ⟨3, 0x80, 0xBF, n - 0xF0⟩
  else none

/-- Reads `count` continuation bytes, the first of them between `low` and `high`. -/
def continuation (low high : Nat) (number taken : Nat) : (count : Nat) → Bytes → Piece
  | 0, _ => .char (Char.ofNat number) taken
  | _ + 1, [] => .fault .truncated taken
  | count + 1, b :: rest =>
    if low ≤ b.toNat ∧ b.toNat ≤ high then
      continuation 0x80 0xBF (number * 64 + (b.toNat - 0x80)) (taken + 1) count rest
    else .fault .invalidContinuation taken

/-- What begins with the byte `b` in front of `rest`. -/
def head (b : UInt8) (rest : Bytes) : Piece :=
  if b.toNat < 0x80 then .char (Char.ofNat b.toNat) 0
  else match lead? b.toNat with
    | none => .fault .invalidStart 0
    | some lead => continuation lead.low lead.high lead.bits 0 lead.count rest

/-- A place where decoding failed: the position of the first byte, the number of bytes, the first
byte itself and the reason. -/
structure DecodeFault where
  start : Nat
  length : Nat
  byte : UInt8
  why : Fault
  deriving DecidableEq

/-- The surrogate that three bytes would denote if UTF-8 had surrogates. -/
def surrogate? : Bytes → Option CodePoint
  | b :: c :: d :: _ =>
    if b.toNat = 0xED ∧ (0xA0 ≤ c.toNat ∧ c.toNat ≤ 0xBF) ∧ (0x80 ≤ d.toNat ∧ d.toNat ≤ 0xBF) then
      CodePoint.ofNat? (0xD800 + (c.toNat - 0xA0) * 64 + (d.toNat - 0x80))
    else none
  | _ => none

/-- Reads bytes from position `start` on, up to the first fault. With `passing`, the three bytes
that would be a surrogate are read as that surrogate. -/
def decodeFrom (passing : Bool) (start : Nat) : Bytes → Except DecodeFault Text
  | [] => .ok []
  | b :: rest =>
    match if passing then surrogate? (b :: rest) else none with
    | some c => (decodeFrom passing (start + 3) (rest.drop 2)).map (c :: ·)
    | none =>
      match head b rest with
      | .char c more =>
        (decodeFrom passing (start + 1 + more) (rest.drop more)).map (.scalar c :: ·)
      | .fault why more => .error ⟨start, 1 + more, b, why⟩
termination_by bytes => bytes.length
decreasing_by all_goals simp only [List.length_drop, List.length_cons]; omega

/-- Reads well-formed bytes, and names the first fault of others. -/
def decode (bytes : Bytes) : Except DecodeFault Text := decodeFrom false 0 bytes

/-- Reads bytes that are well-formed but for surrogates. -/
def decodePassing (bytes : Bytes) : Except DecodeFault Text := decodeFrom true 0 bytes

/-- Reads any bytes: each maximal part of an ill-formed sequence becomes U+FFFD. -/
def decodeLossy : Bytes → Text
  | [] => []
  | b :: rest =>
    match head b rest with
    | .char c more => .scalar c :: decodeLossy (rest.drop more)
    | .fault _ more => .scalar '\uFFFD' :: decodeLossy (rest.drop more)
termination_by bytes => bytes.length
decreasing_by all_goals simp only [List.length_drop, List.length_cons]; omega

end Utf8

end Bearer
