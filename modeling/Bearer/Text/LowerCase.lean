import Bearer.Text.UpperCase

/-! The lower case of Unicode 14, letter by letter. Most capital letters are the upper case of one letter, which is
then their lower case; a table holds those of which this is not true. -/

namespace Bearer

namespace CodePoint

/-- The capital letters that are the upper case of no single letter, or of several. -/
def lowerExceptions : List (Nat × List Nat) := [
  (0x130, [0x69, 0x307]), (0x1C4, [0x1C6]), (0x1C5, [0x1C6]), (0x1C7, [0x1C9]), (0x1C8, [0x1C9]),
  (0x1CA, [0x1CC]), (0x1CB, [0x1CC]), (0x1F1, [0x1F3]), (0x1F2, [0x1F3]), (0x399, [0x3B9]),
  (0x39C, [0x3BC]), (0x3A3, [0x3C3]), (0x3F4, [0x3B8]), (0x1E9E, [0xDF]), (0x1F88, [0x1F80]),
  (0x1F89, [0x1F81]), (0x1F8A, [0x1F82]), (0x1F8B, [0x1F83]), (0x1F8C, [0x1F84]),
  (0x1F8D, [0x1F85]), (0x1F8E, [0x1F86]), (0x1F8F, [0x1F87]), (0x1F98, [0x1F90]),
  (0x1F99, [0x1F91]), (0x1F9A, [0x1F92]), (0x1F9B, [0x1F93]), (0x1F9C, [0x1F94]),
  (0x1F9D, [0x1F95]), (0x1F9E, [0x1F96]), (0x1F9F, [0x1F97]), (0x1FA8, [0x1FA0]),
  (0x1FA9, [0x1FA1]), (0x1FAA, [0x1FA2]), (0x1FAB, [0x1FA3]), (0x1FAC, [0x1FA4]),
  (0x1FAD, [0x1FA5]), (0x1FAE, [0x1FA6]), (0x1FAF, [0x1FA7]), (0x1FBC, [0x1FB3]),
  (0x1FCC, [0x1FC3]), (0x1FFC, [0x1FF3]), (0x2126, [0x3C9]), (0x212A, [0x6B]), (0x212B, [0xE5]),
  (0xA64A, [0xA64B])]

/-- The first letter whose upper case is the given number. -/
def lowered? (n : Nat) : Option Nat :=
  (upperRuns.find? fun run => run.contains (n - run.shift : Int).toNat).map fun run =>
    (n - run.shift : Int).toNat

/-- The lower case of one code point. -/
def toLower (c : CodePoint) : Text :=
  let n := c.toNat
  match lowerExceptions.lookup n with
  | some letters => letters.filterMap ofNat?
  | none =>
    match lowered? n with
    | some m => (ofNat? m).toList
    | none => [c]

end CodePoint

/-- The lower case of a text, letter by letter. -/
def Text.toLower (t : Text) : Text := t.flatMap CodePoint.toLower

end Bearer
