import Bearer.Json.Reader
import Bearer.Proofs.Text.Utf16

/-! Which texts are documents, and of which values, told without a reader. The relations take two texts: the part of
the first one that stands in front of the second is what they derive. -/

namespace Bearer.Json

/-- Blanks, any number of them. -/
inductive Blanks : Text → Text → Prop where
  | none (t : Text) : Blanks t t
  | more {c : CodePoint} {t rest : Text} (hBlank : Cursor.isBlank c = true) (hRest : Blanks t rest) :
      Blanks (c :: t) rest

/-- The escape of a second half of a surrogate pair stands at the head of a text. -/
def LowEscape (t : Text) : Prop :=
  ∃ a b c d rest unit, t = .scalar '\\' :: .scalar 'u' :: a :: b :: c :: d :: rest ∧
    hex4? a b c d = some unit ∧ Utf16.IsLow unit

/-- The inside of a string, up to and with its closing quote. -/
inductive Characters : Text → Text → Text → Prop where
  | close (rest : Text) : Characters [] (.scalar '"' :: rest) rest
  | plain {c : CodePoint} {s t rest : Text} (hControl : 0x20 ≤ c.toNat) (hQuote : c ≠ .scalar '"')
      (hBackslash : c ≠ .scalar '\\') (hRest : Characters s t rest) : Characters (c :: s) (c :: t) rest
  | short {letter c : CodePoint} {s t rest : Text} (hShort : simpleEscape? letter = some c)
      (hRest : Characters s t rest) : Characters (c :: s) (.scalar '\\' :: letter :: t) rest
  | unit {a b c d : CodePoint} {unit : Nat} {s t rest : Text} (hUnit : hex4? a b c d = some unit)
      (hAlone : Utf16.IsHigh unit → ¬LowEscape t) (hRest : Characters s t rest) :
      Characters ((CodePoint.ofNat? unit).toList ++ s)
        (.scalar '\\' :: .scalar 'u' :: a :: b :: c :: d :: t) rest
  | pair {a b c d a' b' c' d' : CodePoint} {high low : Nat} {s t rest : Text}
      (hHigh : hex4? a b c d = some high) (hLow : hex4? a' b' c' d' = some low)
      (hPair : Utf16.IsHigh high ∧ Utf16.IsLow low) (hRest : Characters s t rest) :
      Characters ((Utf16.joinPair high low).toList ++ s)
        (.scalar '\\' :: .scalar 'u' :: a :: b :: c :: d
          :: .scalar '\\' :: .scalar 'u' :: a' :: b' :: c' :: d' :: t) rest

/-- Digits, the values of which are given. -/
def written (ds : List Nat) : Text := ds.map Decimal.digitPoint

/-- Values of decimal digits. -/
def AreDigits (ds : List Nat) : Prop := ∀ d ∈ ds, d < 10

/-- The digits of a whole part: zero alone, or digits of which the first is not zero. -/
inductive Whole : List Nat → Prop where
  | zero : Whole [0]
  | digits {d : Nat} {ds : List Nat} (hFirst : 0 < d) (hDigits : AreDigits (d :: ds)) : Whole (d :: ds)

/-- A fraction, given by its digits, or none. -/
inductive Fraction : List Nat → Text → Text → Prop where
  | absent (t : Text) : Fraction [] t t
  | digits {ds : List Nat} (hSome : ds ≠ []) (hDigits : AreDigits ds) (rest : Text) :
      Fraction ds (.scalar '.' :: (written ds ++ rest)) rest

/-- The sign of an exponent, and whether it is a minus. -/
inductive ExponentSign : Bool → Text → Text → Prop where
  | absent (t : Text) : ExponentSign false t t
  | plus (t : Text) : ExponentSign false (.scalar '+' :: t) t
  | minus (t : Text) : ExponentSign true (.scalar '-' :: t) t

/-- A number with a sign. -/
def signed (negative : Bool) (n : Nat) : Int := if negative then -(n : Int) else n

/-- An exponent, or none. -/
inductive Exponent : Option Int → Text → Text → Prop where
  | absent (t : Text) : Exponent none t t
  | digits {e : Char} {negative : Bool} {ds : List Nat} {t rest : Text} (hLetter : e = 'e' ∨ e = 'E')
      (hSign : ExponentSign negative t (written ds ++ rest)) (hSome : ds ≠ []) (hDigits : AreDigits ds) :
      Exponent (some (signed negative (Decimal.ofDigits ds))) (.scalar e :: t) rest

/-- The sign of a number, which a positive one does not have. -/
def minus (negative : Bool) : Text := if negative then [.scalar '-'] else []

/-- A number. It is an integer if it has neither fraction nor exponent. -/
inductive Number : Json → Text → Text → Prop where
  | int (negative : Bool) {ds : List Nat} (hWhole : Whole ds) (hShort : ds.length ≤ maxDigits) (rest : Text) :
      Number (.int (signed negative (Decimal.ofDigits ds))) (minus negative ++ (written ds ++ rest)) rest
  | float (negative : Bool) {ds fraction : List Nat} {exponent : Option Int} {t t' rest : Text}
      (hWhole : Whole ds) (hFraction : Fraction fraction t t') (hExponent : Exponent exponent t' rest)
      (hSome : fraction ≠ [] ∨ exponent ≠ none) :
      Number (.float (Binary64.ofDecimal negative (Decimal.ofDigits (ds ++ fraction))
        (exponent.getD 0 - fraction.length))) (minus negative ++ (written ds ++ t)) rest

/-- What the grammar derives: a value, the elements of an array or a member of an object, each up to what
stands behind it, and all members of an object as they are written, braces included. -/
inductive Part where
  | value (v : Json)
  | elements (items : List Json)
  | member (name : Text) (v : Json)
  | members (pairs : List (Text × Json))
  | object (pairs : List (Text × Json))

/-- The part that a text begins with, in which at most `depth` containers are open at once, and the text
behind it. Elements and members go up to and with the closing bracket or brace. -/
inductive Derives : (depth : Nat) → Part → Text → Text → Prop where
  | named {depth : Nat} {name : Text} {v : Json} (hNamed : (name, v) ∈ named) (rest : Text) :
      Derives depth (.value v) (name ++ rest) rest
  | number {depth : Nat} {v : Json} {t rest : Text} (hNumber : Number v t rest) :
      Derives depth (.value v) t rest
  | string {depth : Nat} {s t rest : Text} (hCharacters : Characters s t rest) :
      Derives depth (.value (.string s)) (.scalar '"' :: t) rest
  | emptyArray {depth : Nat} {t rest : Text} (hBlanks : Blanks t (.scalar ']' :: rest)) :
      Derives (depth + 1) (.value (.array [])) (.scalar '[' :: t) rest
  | array {depth : Nat} {items : List Json} {t t' rest : Text} (hBlanks : Blanks t t')
      (hItems : Derives depth (.elements items) t' rest) :
      Derives (depth + 1) (.value (.array items)) (.scalar '[' :: t) rest
  | lastElement {depth : Nat} {v : Json} {t t' rest : Text} (hValue : Derives depth (.value v) t t')
      (hBlanks : Blanks t' (.scalar ']' :: rest)) : Derives depth (.elements [v]) t rest
  | nextElement {depth : Nat} {v : Json} {items : List Json} {t t' t'' next rest : Text}
      (hValue : Derives depth (.value v) t t') (hBlanks : Blanks t' (.scalar ',' :: t''))
      (hNext : Blanks t'' next) (hItems : Derives depth (.elements items) next rest) :
      Derives depth (.elements (v :: items)) t rest
  | member {depth : Nat} {name t t' t'' value rest : Text} {v : Json} (hName : Characters name t t')
      (hBlanks : Blanks t' (.scalar ':' :: t'')) (hNext : Blanks t'' value)
      (hValue : Derives depth (.value v) value rest) :
      Derives depth (.member name v) (.scalar '"' :: t) rest
  | lastMember {depth : Nat} {name t t' rest : Text} {v : Json}
      (hMember : Derives depth (.member name v) t t') (hBlanks : Blanks t' (.scalar '\x7d' :: rest)) :
      Derives depth (.members [(name, v)]) t rest
  | nextMember {depth : Nat} {name t t' t'' next rest : Text} {v : Json} {pairs : List (Text × Json)}
      (hMember : Derives depth (.member name v) t t') (hBlanks : Blanks t' (.scalar ',' :: t''))
      (hNext : Blanks t'' next) (hMembers : Derives depth (.members pairs) next rest) :
      Derives depth (.members ((name, v) :: pairs)) t rest
  | noMembers {depth : Nat} {t rest : Text} (hBlanks : Blanks t (.scalar '\x7d' :: rest)) :
      Derives (depth + 1) (.object []) (.scalar '\x7b' :: t) rest
  | someMembers {depth : Nat} {pairs : List (Text × Json)} {t t' rest : Text} (hBlanks : Blanks t t')
      (hMembers : Derives depth (.members pairs) t' rest) :
      Derives (depth + 1) (.object pairs) (.scalar '\x7b' :: t) rest
  | object {depth : Nat} {pairs : List (Text × Json)} {t rest : Text}
      (hObject : Derives depth (.object pairs) t rest) :
      Derives depth (.value (.object (Entries.ofList pairs))) t rest

/-- A part alone between blanks is a whole document. -/
def IsDocument (depth : Nat) (p : Part) (t : Text) : Prop :=
  ∃ t' rest, Blanks t t' ∧ Derives depth p t' rest ∧ Blanks rest []

end Bearer.Json
