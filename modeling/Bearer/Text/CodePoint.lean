/-! A text is a list of Unicode code points. Surrogate code points are admitted, because a quoted `\ud800` in a
document denotes one; a text free of them is the same thing as a list of characters. -/

namespace Bearer

/-- A Unicode code point: a scalar value, or one of the 2048 surrogates from U+D800 on, given by
its distance from U+D800. -/
inductive CodePoint where
  | scalar (c : Char)
  | surrogate (offset : Fin 2048)
  deriving DecidableEq

namespace CodePoint

/-- The number of a code point, below `0x110000`. -/
def toNat : CodePoint → Nat
  | scalar c => c.toNat
  | surrogate offset => 0xD800 + offset.val

/-- The code point with a given number; a number above U+10FFFF has none. -/
def ofNat? (n : Nat) : Option CodePoint :=
  if h : n.isValidChar then some (scalar (Char.ofNatAux n h))
  else if h : 0xD800 ≤ n ∧ n < 0xE000 then some (surrogate ⟨n - 0xD800, by omega⟩)
  else none

instance : Inhabited CodePoint := ⟨scalar '\x00'⟩

def isSurrogate : CodePoint → Bool
  | scalar _ => false
  | surrogate _ => true

def isDigit (c : CodePoint) : Bool := 0x30 ≤ c.toNat && c.toNat ≤ 0x39

theorem toNat_lt (c : CodePoint) : c.toNat < 0x110000 := by
  cases c with
  | scalar c =>
    have h := c.valid
    simp only [UInt32.isValidChar, Nat.isValidChar] at h
    simp only [toNat, Char.toNat]
    omega
  | surrogate offset => simp only [toNat]; omega

end CodePoint

/-- A sequence of code points. -/
abbrev Text := List CodePoint

namespace Text

/-- The text of a character string, which holds no surrogate. -/
def ofString (s : String) : Text := s.toList.map .scalar

instance : Coe String Text := ⟨ofString⟩

/-- The text of scalar values only, which every encoding of Unicode can carry. -/
def IsScalar (t : Text) : Prop := ∀ c ∈ t, c.isSurrogate = false

instance (t : Text) : Decidable t.IsScalar := inferInstanceAs (Decidable (∀ c ∈ t, _))

theorem isScalar_map (cs : List Char) : IsScalar (cs.map .scalar) := by
  intro c hc
  obtain ⟨d, _, rfl⟩ := List.mem_map.mp hc
  rfl

theorem isScalar_ofString (s : String) : (ofString s).IsScalar := isScalar_map s.toList

theorem isScalar_nil : IsScalar [] := List.forall_mem_nil _

theorem isScalar_append {t t' : Text} : (t ++ t').IsScalar ↔ t.IsScalar ∧ t'.IsScalar := by
  simp only [IsScalar, List.mem_append, or_imp, forall_and]

theorem isScalar_cons {c : CodePoint} {t : Text} : IsScalar (c :: t) ↔ c.isSurrogate = false ∧ t.IsScalar :=
  List.forall_mem_cons

/-- Texts joined with a separator between neighbours. -/
def join (separator : Text) (parts : List Text) : Text := separator.intercalate parts

/-- The pieces of a text between the occurrences of one code point, empty pieces kept. -/
def splitOn (separator : CodePoint) : Text → List Text
  | [] => [[]]
  | c :: rest =>
    if c = separator then [] :: splitOn separator rest
    else match splitOn separator rest with
      | [] => [[c]]
      | piece :: pieces => (c :: piece) :: pieces

/-- The text in front of the first occurrence of a code point, and the text behind it. -/
def cut? (separator : CodePoint) : Text → Option (Text × Text)
  | [] => none
  | c :: rest =>
    if c = separator then some ([], rest)
    else (cut? separator rest).map fun (before, after) => (c :: before, after)

/-- The text without the code points at its end that satisfy `p`. -/
def dropEndWhile (p : CodePoint → Bool) (t : Text) : Text :=
  (t.reverse.dropWhile p).reverse

/-- The text without the code points at either end that satisfy `p`. -/
def trim (p : CodePoint → Bool) (t : Text) : Text := dropEndWhile p (t.dropWhile p)

/-- The text followed by blanks up to a width. -/
def padEnd (width : Nat) (t : Text) : Text :=
  t ++ List.replicate (width - t.length) (.scalar ' ')

theorem splitOn_ne_nil (separator : CodePoint) (t : Text) : splitOn separator t ≠ [] := by
  cases t with
  | nil => simp [splitOn]
  | cons c rest =>
    simp only [splitOn]
    split
    · simp
    · split <;> simp

end Text

end Bearer
