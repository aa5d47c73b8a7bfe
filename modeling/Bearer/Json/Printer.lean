import Bearer.Json.Value
import Bearer.Text.Quoted
import Bearer.Text.Wide
import Bearer.Decimal.Layout

/-! A style says whether code points beyond ASCII are escaped and whether the text is laid out over several lines. The
compact form has one blank behind each comma and colon. -/

namespace Bearer

namespace Json

/-- How a document is laid out. -/
structure Style where
  /-- Whether only printable ASCII code points are written as they are. -/
  ascii : Bool := true
  /-- The blanks per level when each item has a line of its own. -/
  indent : Option Nat := none

namespace Style

/-- The break in front of an item at a level. -/
def gap (style : Style) (level : Nat) : Text :=
  match style.indent with
  | none => []
  | some width => .scalar '\n' :: List.replicate (width * level) (.scalar ' ')

/-- What stands between two items at a level. -/
def separator (style : Style) (level : Nat) : Text :=
  match style.indent with
  | none => ", "
  | some _ => .scalar ',' :: style.gap level

end Style

/-- The escape of one sixteen-bit unit. -/
def unitEscape (n : Nat) : Text := ("\\u" : Text) ++ Text.hex 4 n

/-- The short escape of a code point that has one. -/
def shortEscape? : CodePoint → Option Text
  | .scalar '"' => some "\\\""
  | .scalar '\\' => some "\\\\"
  | .scalar '\n' => some "\\n"
  | .scalar '\r' => some "\\r"
  | .scalar '\t' => some "\\t"
  | .scalar '\x0c' => some "\\f"
  | .scalar '\x08' => some "\\b"
  | _ => none

/-- One code point of a string. -/
def printPoint (ascii : Bool) (c : CodePoint) : Text :=
  match shortEscape? c with
  | some escape => escape
  | none =>
    if c.toNat < 0x20 ∨ (ascii = true ∧ 0x7E < c.toNat) then
      (Utf16.toUnits c).flatMap unitEscape
    else [c]

/-- A string between double quotes. -/
def printString (ascii : Bool) (t : Text) : Text :=
  .scalar '"' :: t.flatMap (printPoint ascii) ++ [.scalar '"']

mutual

/-- The text of a value at a level. -/
def print (style : Style) (level : Nat) : Json → Text
  | null => "null"
  | bool true => "true"
  | bool false => "false"
  | int n => Decimal.ofInt n
  | float x => Decimal.ofFloat Decimal.document x
  | string t => printString style.ascii t
  | array [] => "[]"
  | array (v :: rest) =>
    .scalar '[' :: style.gap (level + 1) ++ print style (level + 1) v
      ++ printItems style (level + 1) rest ++ style.gap level ++ [.scalar ']']
  | object [] => [.scalar '{', .scalar '}']
  | object ((name, v) :: rest) =>
    .scalar '{' :: style.gap (level + 1) ++ printString style.ascii name ++ (": " : Text)
      ++ print style (level + 1) v ++ printMembers style (level + 1) rest ++ style.gap level
      ++ [.scalar '}']

/-- The texts of the items behind the first one, each with its separator. -/
def printItems (style : Style) (level : Nat) : List Json → Text
  | [] => []
  | v :: rest => style.separator level ++ print style level v ++ printItems style level rest

/-- The texts of the members behind the first one, each with its separator. -/
def printMembers (style : Style) (level : Nat) : List (Text × Json) → Text
  | [] => []
  | (name, v) :: rest =>
    style.separator level ++ printString style.ascii name ++ (": " : Text) ++ print style level v
      ++ printMembers style level rest

end

/-- The compact text of a value, in ASCII. -/
def compact (v : Json) : Text := print {} 0 v

end Json

end Bearer
