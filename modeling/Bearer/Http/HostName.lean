import Bearer.Decimal.Digits
import Bearer.Http.Escape
import Bearer.Http.Punycode
import Bearer.Text.LowerCase
import Bearer.Text.Printable

/-! A host is an address of four decimal numbers, an address of hexadecimal groups in brackets, a name in ASCII, or a
name whose labels are written in Punycode. -/

namespace Bearer.HostName

/-- Why a text is no host. -/
inductive Fault where
  | decimalAddress
  | bracketedAddress
  | name
  deriving DecidableEq

/-- Whether a text consists of digits with a number of other code points of any kind between them.
What is so written is meant as an address of four numbers when there are three. -/
def isDotted : (separators : Nat) → Text → Bool
  | _, [] => false
  | 0, c :: rest => c.isDigit && rest.all CodePoint.isDigit
  | n + 1, c :: rest =>
    c.isDigit && ((match rest with
      | [] => false
      | _ :: rest => isDotted n rest) || isDotted (n + 1) rest)

/-- A number from 0 to 255 without superfluous zeros. -/
def isOctet (t : Text) : Bool :=
  let (ds, rest) := Decimal.takeDigits t
  rest.isEmpty && !ds.isEmpty && ds.length ≤ 3 && (ds.length = 1 || ds.head? != some 0)
    && Decimal.ofDigits ds ≤ 255

/-- An address of four numbers with points between them. -/
def isDecimalAddress (t : Text) : Bool :=
  let parts := Text.splitOn (.scalar '.') t
  parts.length = 4 && parts.all isOctet

/-- A group of one to four hexadecimal digits. -/
def isGroup (t : Text) : Bool :=
  !t.isEmpty && t.length ≤ 4 && t.all fun c => (Text.hexValue? c).isSome

/-- The groups of an address, an address of four numbers at its end counted as two groups. -/
def groups? (t : Text) : Option (List Text) :=
  let parts := Text.splitOn (.scalar ':') t
  if parts.length < 3 then none
  else
    match parts.getLast? with
    | some last =>
      if last.contains (.scalar '.') then
        if isDecimalAddress last then some (parts.dropLast ++ [("0" : Text), ("0" : Text)]) else none
      else some parts
    | none => none

/-- Whether the places before or behind a gap are filled: all of them, or none but the empty one at
the very end of the text. -/
def isSide (parts : List Text) : Bool := parts == [[]] || parts.all isGroup

/-- Whether groups make an address: eight of them, or fewer with one gap. -/
def areGroups (parts : List Text) : Bool :=
  let inner := (parts.drop 1).dropLast
  match (List.range inner.length).filter fun i => inner[i]? == some [] with
  | [] => parts.length = 8 && parts.all isGroup
  | [i] =>
    let before := parts.take (i + 1)
    let behind := parts.drop (i + 2)
    let filled := (before ++ behind).countP (· != [])
    isSide before && isSide behind && filled < 8 && parts.length ≤ 9
  | _ => false

/-- An address of hexadecimal groups, perhaps with the name of a zone behind a percent sign. -/
def isBracketedAddress (t : Text) : Bool :=
  let (address, zone) := match Text.cut? (.scalar '%') t with
    | some (address, zone) => (address, some zone)
    | none => (t, none)
  let zoneOk := match zone with
    | some zone => !zone.isEmpty && !zone.contains (.scalar '%')
    | none => true
  zoneOk && ((groups? address).map areGroups).getD false

/-- The blocks of code points beyond ASCII that hold no letters and digits for names. -/
def symbolBlocks : List (Nat × Nat) := [
  (0x80, 0xB6), (0xB8, 0xBF), (0xD7, 0xD7), (0xF7, 0xF7), (0x2000, 0x2C2F), (0x2E00, 0x3004),
  (0x3008, 0x303F), (0xE000, 0xFA0D), (0xFB00, 0xFE1F), (0xFE30, 0xFFFF), (0x1D000, 0x1D7FF),
  (0x1F000, 0x1FAFF)]

/-- The code points that labels are made of, capital letters excepted. -/
def isLabelPoint (c : CodePoint) : Bool :=
  let n := c.toNat
  if n < 0x80 then c.isDigit || (0x61 ≤ n && n ≤ 0x7A) || n == 0x2D
  else c.isPrintable && !symbolBlocks.any fun (first, last) => first ≤ n && n ≤ last

/-- Whether a label has a form that names may have: no hyphen at an end, nor at its third and
fourth place. -/
def isLabel (t : Text) : Bool :=
  !t.isEmpty && t.all isLabelPoint && t.head? != some (.scalar '-')
    && t.getLast? != some (.scalar '-') && (t.drop 2).take 2 != Text.ofString "--"

/-- The ASCII form of a label. -/
def asciiLabel? (label : Text) : Option Text :=
  let written : Text := if label.all (·.toNat < 128) then label
    else ("xn--" : Text) ++ Punycode.encode label
  if isLabel label && written.length ≤ 63 then some written else none

def isDot (c : CodePoint) : Bool :=
  [0x2E, 0x3002, 0xFF0E, 0xFF61].contains c.toNat

/-- The ASCII form of a name; a dot may stand at its end. -/
def asciiName? (name : Text) : Option Text := do
  let dotted := name.map fun c => if isDot c then .scalar '.' else c
  let labels := Text.splitOn (.scalar '.') dotted
  let atEnd := labels.getLast? == some []
  let labels := if atEnd then labels.dropLast else labels
  if labels.isEmpty then none
  else
    let written ← labels.mapM asciiLabel?
    let written := Text.join (Text.ofString ".") (if atEnd then written ++ [[]] else written)
    if written.length ≤ (if atEnd then 254 else 253) then some written else none

/-- The written form of a host, which is without brackets. -/
def encode (host : Text) : Except Fault Text :=
  if host.isEmpty then .ok []
  else if isDotted 3 host then
    if isDecimalAddress host then .ok host else .error .decimalAddress
  else if host.head? == some (.scalar '[') && host.getLast? == some (.scalar ']')
      && 2 ≤ host.length then
    let inner := (host.drop 1).dropLast
    if isBracketedAddress inner then .ok inner else .error .bracketedAddress
  else if host.all (·.toNat < 128) then .ok (Escape.quote Escape.isHostSafe host.toLower)
  else match asciiName? host.toLower with
    | some name => .ok name
    | none => .error .name

end Bearer.HostName
