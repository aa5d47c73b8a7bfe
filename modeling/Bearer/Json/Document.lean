import Bearer.Json.Reader
import Bearer.Text.Fault

/-! A document is decoded before it is read. A byte order mark tells the encoding; without one the places of the zero
bytes among the first four do, since a document begins with ASCII characters. -/

namespace Bearer

/-- An encoding of documents. -/
inductive Charset where
  | utf8
  | utf8Marked
  | utf16 (order : ByteOrder) (marked : Bool)
  | utf32 (order : ByteOrder) (marked : Bool)
  deriving DecidableEq

namespace Charset

/-- The encoding that the zero bytes among the first four bytes tell. -/
def ofZeros : Bytes → Charset
  | a :: b :: c :: d :: _ =>
    if a = 0 then if b ≠ 0 then .utf16 .big false else .utf32 .big false
    else if b = 0 then
      if c ≠ 0 ∨ d ≠ 0 then .utf16 .little false else .utf32 .little false
    else .utf8
  | [a, b] =>
    if a = 0 then .utf16 .big false else if b = 0 then .utf16 .little false else .utf8
  | _ => .utf8

/-- The encoding of a document. The mark of UTF-32 is looked for first, because in the little byte
order it begins with that of UTF-16. -/
def detect (bytes : Bytes) : Charset :=
  if [0x00, 0x00, 0xFE, 0xFF].isPrefixOf bytes then .utf32 .big true
  else if [0xFF, 0xFE, 0x00, 0x00].isPrefixOf bytes then .utf32 .little true
  else if [0xFE, 0xFF].isPrefixOf bytes then .utf16 .big true
  else if [0xFF, 0xFE].isPrefixOf bytes then .utf16 .little true
  else if [0xEF, 0xBB, 0xBF].isPrefixOf bytes then .utf8Marked
  else ofZeros bytes

end Charset

namespace Json

/-- Why bytes are not a document. -/
inductive DocumentError where
  | utf8 (fault : Utf8.DecodeFault)
  | utf16 (order : ByteOrder) (fault : WideFault)
  | utf32 (order : ByteOrder) (fault : WideFault)
  | text (t : Text) (why : ReadError)
  | tooDeep (container : Container)
  deriving DecidableEq

/-- Why a text is no document, with the text. -/
def Stop.inText (t : Text) : Stop → DocumentError
  | unreadable why => .text t why
  | tooDeep container => .tooDeep container

/-- The text of a document. Surrogates are let through in every encoding; positions of faults count
from the first byte, in UTF-8 from the first byte behind the mark. -/
def decode (bytes : Bytes) : Except DocumentError Text :=
  match Charset.detect bytes with
  | .utf8 => (Utf8.decodePassing bytes).mapError .utf8
  | .utf8Marked => (Utf8.decodePassing (bytes.drop 3)).mapError .utf8
  | .utf16 order marked =>
    (if marked then Utf16.decode order 2 (bytes.drop 2) else Utf16.decode order 0 bytes).mapError
      (.utf16 order)
  | .utf32 order marked =>
    (if marked then Utf32.decode order 4 (bytes.drop 4) else Utf32.decode order 0 bytes).mapError
      (.utf32 order)

/-- Reads a document, in which at most `nesting` containers may be open at once. -/
def ofBytes (bytes : Bytes) (nesting : Nat := usualNesting) : Except DocumentError Json := do
  let t ← decode bytes
  (read t nesting).mapError (·.inText t)

/-- The wording of an error. -/
def DocumentError.message : DocumentError → Text
  | utf8 fault => fault.message
  | utf16 order fault => fault.message "utf-16" order
  | utf32 order fault => fault.message "utf-32" order
  | text t why => why.message t
  | tooDeep container => container.message

end Json

end Bearer
