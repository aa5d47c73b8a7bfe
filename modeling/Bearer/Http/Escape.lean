import Bearer.Http.Form
import Bearer.Text.Hex

/-! Every part of an address has code points that stand for themselves; another one is written as the bytes of its
UTF-8 form, each behind a percent sign. Escapes that are in a text already stay. -/

namespace Bearer.Escape

/-- The letters, digits and marks that stand for themselves everywhere. -/
def isUnreserved (c : CodePoint) : Bool :=
  match c with
  | .scalar c => c.isAlphanum || c == '-' || c == '.' || c == '_' || c == '~'
  | .surrogate _ => false

/-- A byte sequence of ASCII as a text. -/
def ofAscii (bytes : Bytes) : Text := bytes.map fun b => .scalar (Char.ofNat b.toNat)

/-- The escapes of one code point. -/
def escape : CodePoint → Text
  | .scalar c => ofAscii ((Utf8.encodeChar c).flatMap Form.percent)
  | .surrogate _ => []

/-- The text with all code points escaped that are neither unreserved nor `safe`. -/
def quote (safe : CodePoint → Bool) : Text → Text
  | [] => []
  | .scalar '%' :: a :: b :: rest =>
    if (Text.hexValue? a).isSome && (Text.hexValue? b).isSome then
      .scalar '%' :: a :: b :: quote safe rest
    else (if safe (.scalar '%') then [.scalar '%'] else escape (.scalar '%'))
      ++ quote safe (a :: b :: rest)
  | c :: rest => (if isUnreserved c || safe c then [c] else escape c) ++ quote safe rest

/-- The bytes of a text of ASCII in which the escapes are undone; a percent sign that begins no
escape stands for itself. -/
def unquoteBytes : Text → Bytes
  | [] => []
  | .scalar '%' :: a :: b :: rest =>
    match Text.hexValue? a, Text.hexValue? b with
    | some high, some low => UInt8.ofNat (high * 16 + low) :: unquoteBytes rest
    | _, _ => 0x25 :: unquoteBytes (a :: b :: rest)
  | c :: rest => UInt8.ofNat c.toNat :: unquoteBytes rest

/-- The text that an escaped one stands for. -/
def unquote (t : Text) : Text := Utf8.decodeLossy (unquoteBytes t)

/-- Printable ASCII, a blank and the given characters excepted. -/
def graphicExcept (excepted : List Char) (c : CodePoint) : Bool :=
  match c with
  | .scalar c => 0x20 < c.toNat && c.toNat < 0x7F && !excepted.contains c
  | .surrogate _ => false

def isFragmentSafe : CodePoint → Bool := graphicExcept ['"', '<', '>', '\x60']

def isQuerySafe : CodePoint → Bool := graphicExcept ['"', '#', '<', '>']

def isPathSafe : CodePoint → Bool :=
  graphicExcept ['"', '#', '<', '>', '?', '\x60', '\x7b', '\x7d']

def isUserSafe : CodePoint → Bool :=
  graphicExcept ['"', '#', '<', '>', '?', '\x60', '\x7b', '\x7d', '/', ';', '=', '@', '[', '\\',
    ']', '^', '|']

def isHostSafe (c : CodePoint) : Bool :=
  match c with
  | .scalar c => ['!', '$', '&', '\'', '(', ')', '*', '+', ',', ';', '=', '"', '\x60', '\x7b',
      '\x7d', '%', '|', '\\'].contains c
  | .surrogate _ => false

end Bearer.Escape
