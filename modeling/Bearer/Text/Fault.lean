import Bearer.Text.Quoted
import Bearer.Text.Wide
import Bearer.Decimal.Digits

/-! A fault names the encoding, the place in the text or among the bytes, and the reason. -/

namespace Bearer

namespace Text

/-- A place of one or more units, named by a word for one and a word for several. -/
def faultPlace (one several : Text) (start length : Nat) : Text :=
  if length = 1 then one ++ (" in position " : Text) ++ Decimal.ofNat start
  else several ++ (" in position " : Text) ++ Decimal.ofNat start ++ ("-" : Text)
    ++ Decimal.ofNat (start + length - 1)

/-- The wording of a fault in bytes. -/
def decodeFault (encoding : Text) (start : Nat) (byte : UInt8) (length : Nat) (reason : Text) :
    Text :=
  ("'" : Text) ++ encoding ++ ("' codec can't decode " : Text)
    ++ faultPlace (("byte 0x" : Text) ++ hex 2 byte.toNat) "bytes" start length
    ++ (": " : Text) ++ reason

end Text

namespace EncodeFault

/-- The wording of a text that UTF-8 can not carry. -/
def message (fault : EncodeFault) : Text :=
  ("'utf-8' codec can't encode " : Text)
    ++ Text.faultPlace
        (("character '" : Text) ++ Text.numberEscape fault.first ++ ("'" : Text)) "characters"
        fault.start fault.length
    ++ (": surrogates not allowed" : Text)

end EncodeFault

namespace Utf8.DecodeFault

/-- The wording of a fault in UTF-8. -/
def message (fault : DecodeFault) : Text :=
  Text.decodeFault "utf-8" fault.start fault.byte fault.length
    (match fault.why with
      | .invalidStart => "invalid start byte"
      | .invalidContinuation => "invalid continuation byte"
      | .truncated => "unexpected end of data")

end Utf8.DecodeFault

namespace WideFault

/-- The wording of a fault in wide units. -/
def message (encoding : Text) (order : ByteOrder) (fault : WideFault) : Text :=
  let orderName : Text := match order with
    | .little => "-le"
    | .big => "-be"
  Text.decodeFault (encoding ++ orderName) fault.start (fault.bytes.headD 0) fault.bytes.length
    (if fault.outOfRange then "code point not in range(0x110000)" else "truncated data")

end WideFault

end Bearer
