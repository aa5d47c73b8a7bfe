import Bearer.Text.CodePoint

/-! Writing and reading of natural numbers and integers in base ten. `ofDigits (digits n) = n` says that nothing is
lost; a leading zero is written for zero alone. -/

namespace Bearer.Decimal

/-- The digits of a number, the most significant first; zero has the single digit `0`. -/
def digits (n : Nat) : List Nat :=
  if n < 10 then [n] else digits (n / 10) ++ [n % 10]
termination_by n
decreasing_by omega

/-- The number with the given digits, the most significant first. -/
def ofDigits (ds : List Nat) : Nat := ds.foldl (fun n d => 10 * n + d) 0

theorem ofDigits_append_singleton (ds : List Nat) (d : Nat) :
    ofDigits (ds ++ [d]) = 10 * ofDigits ds + d := by
  simp [ofDigits, List.foldl_append]

theorem ofDigits_digits (n : Nat) : ofDigits (digits n) = n := by
  induction n using Nat.strongRecOn with
  | _ n ih =>
    rw [digits]
    split
    · simp [ofDigits]
    · rename_i h
      rw [ofDigits_append_singleton, ih (n / 10) (by omega)]
      omega

theorem lt_of_mem_digits {n d : Nat} (h : d ∈ digits n) : d < 10 := by
  induction n using Nat.strongRecOn with
  | _ n ih =>
    rw [digits] at h
    split at h
    · rename_i hn
      rwa [List.mem_singleton.mp h]
    · rename_i hn
      rcases List.mem_append.mp h with hFront | hLast
      · exact ih (n / 10) (by omega) hFront
      · rw [List.mem_singleton.mp hLast]
        omega

/-- The character of a digit. -/
def digitPoint (d : Nat) : CodePoint := .scalar (Char.ofNat (0x30 + d))

/-- A natural number in base ten. -/
def ofNat (n : Nat) : Text := (digits n).map digitPoint

/-- An integer in base ten, with a sign in front of a negative one. -/
def ofInt (n : Int) : Text :=
  match n with
  | .ofNat n => ofNat n
  | .negSucc n => .scalar '-' :: ofNat (n + 1)

/-- A natural number in base ten, with zeros in front up to a width. -/
def ofNatPadded (width n : Nat) : Text :=
  let written := ofNat n
  List.replicate (width - written.length) (.scalar '0') ++ written

theorem isScalar_ofNat (n : Nat) : (ofNat n).IsScalar := by
  intro c hc
  obtain ⟨d, -, rfl⟩ := List.mem_map.mp hc
  rfl

theorem isScalar_ofNatPadded (width n : Nat) : (ofNatPadded width n).IsScalar := by
  refine Text.isScalar_append.mpr ⟨fun c hc => ?_, isScalar_ofNat n⟩
  rw [(List.mem_replicate.mp hc).2]
  rfl

/-- The digits that a text begins with, and the rest of the text. -/
def takeDigits (t : Text) : List Nat × Text :=
  ((t.takeWhile CodePoint.isDigit).map (fun c => c.toNat - 0x30), t.dropWhile CodePoint.isDigit)

end Bearer.Decimal
