import Bearer.Text.CodePoint

/-! The form of a text in ASCII letters and digits that host names are written in (bootstring with the parameters of
host names). -/

namespace Bearer.Punycode

/-- The character of a value below 36. -/
def digit (n : Nat) : CodePoint :=
  .scalar (Char.ofNat (if n < 26 then 0x61 + n else 0x30 + (n - 26)))

/-- The least value that a digit at a position, counted in steps of 36, must have to be followed by
another digit. -/
def threshold (bias position : Nat) : Nat :=
  if position ≤ bias then 1 else if bias + 26 ≤ position then 26 else position - bias

theorem threshold_pos (bias position : Nat) : 0 < threshold bias position := by
  simp only [threshold]
  split
  · decide
  · split <;> omega

/-- The digits of a number from a position on. -/
def number (bias position n : Nat) : Text :=
  let t := threshold bias position
  if n < t then [digit n]
  else digit (t + (n - t) % (36 - t)) :: number bias (position + 36) ((n - t) / (36 - t))
termination_by n
decreasing_by
  have hp := threshold_pos bias position
  exact Nat.lt_of_le_of_lt (Nat.div_le_self _ _) (by omega)

/-- Divides by 35 until at most 455 is left, and counts 36 for each division. -/
def reduce (delta count : Nat) : Nat × Nat :=
  if 455 < delta then reduce (delta / 35) (count + 36) else (delta, count)
termination_by delta
decreasing_by omega

/-- The bias after a number: `points` code points are placed so far. -/
def adapt (delta points : Nat) (first : Bool) : Nat :=
  let delta := if first then delta / 700 else delta / 2
  let (delta, count) := reduce (delta + delta / points) 0
  count + 36 * delta / (delta + 38)

/-- How far a text has been written. -/
structure Progress where
  written : Text
  delta : Nat
  bias : Nat
  placed : Nat

/-- Passes over one code point of the text while those with number `n` are inserted. -/
def visit (basic n : Nat) (p : Progress) (c : CodePoint) : Progress :=
  if c.toNat < n then { p with delta := p.delta + 1 }
  else if c.toNat = n then
    { written := p.written ++ number p.bias 36 p.delta
      delta := 0
      bias := adapt p.delta (p.placed + 1) (p.placed == basic)
      placed := p.placed + 1 }
  else p

/-- Inserts the code points with the given numbers, which ascend; `next` is the least number that
is still to be considered. -/
def insertAll (t : Text) (basic : Nat) : List Nat → (next : Nat) → Progress → Text
  | [], _, p => p.written
  | n :: rest, next, p =>
    let p := { p with delta := p.delta + (n - next) * (p.placed + 1) }
    let p := t.foldl (visit basic n) p
    insertAll t basic rest (n + 1) { p with delta := p.delta + 1 }

/-- The ASCII form of a text. -/
def encode (t : Text) : Text :=
  let basic := t.filter (·.toNat < 128)
  let others := ((t.filter (128 ≤ ·.toNat)).map CodePoint.toNat).mergeSort.eraseDups
  let start : Text := if basic.isEmpty then [] else basic ++ [.scalar '-']
  insertAll t basic.length others 128 ⟨start, 0, 72, basic.length⟩

end Bearer.Punycode
