import Bearer.Text.Hex
import Bearer.Text.Printable

/-! The quoted form of a text stands between single quotes, or between double quotes when the text holds a single
quote and no double quote. -/

namespace Bearer.Text

/-- The escape of a code point by its number, as short as the number allows. -/
def numberEscape (c : CodePoint) : Text :=
  let n := c.toNat
  if n < 0x100 then "\\x" ++ hex 2 n
  else if n < 0x10000 then "\\u" ++ hex 4 n
  else "\\U" ++ hex 8 n

/-- One code point inside quotes. -/
def quotedPoint (quote : CodePoint) (c : CodePoint) : Text :=
  if c = quote ∨ c = .scalar '\\' then [.scalar '\\', c]
  else if c = .scalar '\n' then "\\n"
  else if c = .scalar '\r' then "\\r"
  else if c = .scalar '\t' then "\\t"
  else if c.isPrintable then [c]
  else numberEscape c

/-- The quote that a text is written with. -/
def quoteOf (t : Text) : CodePoint :=
  if t.contains (.scalar '\'') && !t.contains (.scalar '"') then .scalar '"' else .scalar '\''

/-- The quoted form of a text. -/
def quoted (t : Text) : Text :=
  [quoteOf t] ++ t.flatMap (quotedPoint (quoteOf t)) ++ [quoteOf t]

/-- The quoted form of a text, or `None` for an absent one. -/
def quoted? : Option Text → Text
  | none => "None"
  | some t => quoted t

end Bearer.Text
