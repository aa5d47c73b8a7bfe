import Bearer.Text.Wide

/-! Every code point is found again under its number. Those beyond U+FFFF are two units in UTF-16, a surrogate pair,
which joins to the code point again. -/

namespace Bearer

namespace CodePoint

theorem ofNat?_toNat (c : CodePoint) : ofNat? c.toNat = some c := by
  cases c with
  | scalar c =>
      have hValid : c.toNat.isValidChar := c.valid
      show ofNat? c.toNat = _
      unfold ofNat?
      rw [dif_pos hValid]
      exact congrArg (some ∘ scalar) (Char.toNat_inj.mp rfl)
  | surrogate offset =>
      have hBound := offset.isLt
      have hInvalid : ¬(0xD800 + offset.val).isValidChar := by
        unfold Nat.isValidChar
        omega
      show ofNat? (0xD800 + offset.val) = _
      unfold ofNat?
      rw [dif_neg hInvalid, dif_pos (by omega)]
      simp only [Nat.add_sub_cancel_left]

theorem toNat_of_ofNat? {n : Nat} {c : CodePoint} (h : ofNat? n = some c) : c.toNat = n := by
  unfold ofNat? at h
  by_cases hValid : n.isValidChar
  · rw [dif_pos hValid] at h
    cases h
    rfl
  by_cases hSurrogate : 0xD800 ≤ n ∧ n < 0xE000
  · rw [dif_neg hValid, dif_pos hSurrogate] at h
    cases h
    exact Nat.add_sub_cancel' hSurrogate.1
  · rw [dif_neg hValid, dif_neg hSurrogate] at h
    contradiction

theorem exists_ofNat? {n : Nat} (hBound : n < 0x110000) : ∃ c, ofNat? n = some c := by
  unfold ofNat?
  by_cases hValid : n.isValidChar
  · rw [dif_pos hValid]
    exact ⟨_, rfl⟩
  · rw [dif_neg hValid]
    unfold Nat.isValidChar at hValid
    rw [dif_pos (by omega)]
    exact ⟨_, rfl⟩

end CodePoint

namespace Utf16

/-- The units of a first and of a second half of a surrogate pair. -/
abbrev IsHigh (u : Nat) : Prop := 0xD800 ≤ u ∧ u < 0xDC00

abbrev IsLow (u : Nat) : Prop := 0xDC00 ≤ u ∧ u < 0xE000

/-- What a text is once it has gone through UTF-16. -/
def carried (t : Text) : Text := ofUnits (t.flatMap toUnits)

theorem ofUnits_cons_of_not_isHigh {u : Nat} (hHigh : ¬IsHigh u) (us : List Nat) :
    ofUnits (u :: us) = (CodePoint.ofNat? u).toList ++ ofUnits us := by
  cases us with
  | nil => simp [ofUnits]
  | cons v us =>
      rw [ofUnits, if_neg]
      exact fun h => hHigh ⟨h.1, h.2.1⟩

/-- The two units of a code point beyond U+FFFF are a surrogate pair, which joins to it. -/
theorem toUnits_of_wide {c : CodePoint} (hWide : 0x10000 ≤ c.toNat) :
    ∃ high low, toUnits c = [high, low] ∧ IsHigh high ∧ IsLow low ∧ joinPair high low = some c := by
  have hBound := c.toNat_lt
  refine ⟨0xD800 + (c.toNat - 0x10000) / 0x400, 0xDC00 + (c.toNat - 0x10000) % 0x400, ?_, ?_, ?_, ?_⟩
  · rw [toUnits, if_neg (by omega)]
  · unfold IsHigh
    omega
  · unfold IsLow
    omega
  · have hNumber : 0x10000 + (0xD800 + (c.toNat - 0x10000) / 0x400 - 0xD800) * 0x400
        + (0xDC00 + (c.toNat - 0x10000) % 0x400 - 0xDC00) = c.toNat := by omega
    rw [joinPair, hNumber, CodePoint.ofNat?_toNat]

theorem toUnits_of_narrow {c : CodePoint} (hNarrow : c.toNat < 0x10000) : toUnits c = [c.toNat] := by
  rw [toUnits, if_pos hNarrow]

/-- A text without surrogates goes through UTF-16 unchanged. -/
theorem carried_of_isScalar {t : Text} (hScalar : t.IsScalar) : carried t = t := by
  induction t with
  | nil => rfl
  | cons c t ih =>
      have hRest : ofUnits (t.flatMap toUnits) = t := ih fun d hd => hScalar d (List.mem_cons_of_mem _ hd)
      rw [carried, List.flatMap_cons]
      by_cases hNarrow : c.toNat < 0x10000
      · have hAlone : ¬IsHigh c.toNat := by
          have hFirst := hScalar c List.mem_cons_self
          cases c with
          | scalar c =>
              have hValid := c.valid
              simp only [UInt32.isValidChar, Nat.isValidChar] at hValid
              simp only [IsHigh, CodePoint.toNat, Char.toNat]
              omega
          | surrogate offset => cases hFirst
        rw [toUnits_of_narrow hNarrow, List.singleton_append, ofUnits_cons_of_not_isHigh hAlone, hRest,
          CodePoint.ofNat?_toNat]
        rfl
      · obtain ⟨high, low, hUnits, hHigh, hLow, hJoined⟩ := toUnits_of_wide (Nat.not_lt.mp hNarrow)
        rw [hUnits]
        show ofUnits (high :: low :: t.flatMap toUnits) = c :: t
        rw [ofUnits, if_pos ⟨hHigh.1, hHigh.2, hLow⟩, hJoined, hRest]
        rfl

/-- The joined text has the units that it was joined from. -/
theorem flatMap_toUnits_ofUnits {us : List Nat} (hUnits : ∀ u ∈ us, u < 0x10000) :
    (ofUnits us).flatMap toUnits = us := by
  have hOne {u : Nat} (hUnit : u < 0x10000) : (CodePoint.ofNat? u).toList.flatMap toUnits = [u] := by
    obtain ⟨c, hPoint⟩ := CodePoint.exists_ofNat? (n := u) (by omega)
    have hNumber := CodePoint.toNat_of_ofNat? hPoint
    rw [hPoint, Option.toList_some, List.flatMap_singleton, toUnits_of_narrow (hNumber ▸ hUnit), hNumber]
  induction us using ofUnits.induct with
  | case1 => rfl
  | case2 u => exact hOne (hUnits u List.mem_cons_self)
  | case3 u v us hPair ih =>
      obtain ⟨c, hPoint⟩ := CodePoint.exists_ofNat?
        (n := 0x10000 + (u - 0xD800) * 0x400 + (v - 0xDC00)) (by omega)
      have hNumber := CodePoint.toNat_of_ofNat? hPoint
      have hHigh : 0xD800 + (c.toNat - 0x10000) / 0x400 = u := by omega
      have hLow : 0xDC00 + (c.toNat - 0x10000) % 0x400 = v := by omega
      rw [ofUnits, if_pos hPair, joinPair, hPoint, List.flatMap_append, Option.toList_some,
        List.flatMap_singleton, ih fun w hw => hUnits w (List.mem_cons_of_mem _ (List.mem_cons_of_mem _ hw)),
        toUnits, if_neg (by omega), hHigh, hLow]
      rfl
  | case4 u v us hPair ih =>
      rw [ofUnits, if_neg hPair, List.flatMap_append, hOne (hUnits u List.mem_cons_self),
        ih fun w hw => hUnits w (List.mem_cons_of_mem _ hw)]
      rfl

theorem toUnits_lt (c : CodePoint) : ∀ u ∈ toUnits c, u < 0x10000 := by
  by_cases hNarrow : c.toNat < 0x10000
  · simpa [toUnits_of_narrow hNarrow] using hNarrow
  · obtain ⟨high, low, hUnits, hHigh, hLow, -⟩ := toUnits_of_wide (Nat.not_lt.mp hNarrow)
    simp only [hUnits, List.mem_cons, List.not_mem_nil, or_false, forall_eq_or_imp, forall_eq]
    omega

/-- Nothing but itself is carried to a text below the surrogates. -/
theorem eq_of_carried {t s : Text} (hBelow : ∀ c ∈ s, c.toNat < 0xD800) (hCarried : carried t = s) : t = s := by
  have hUnits : t.flatMap toUnits = s.flatMap toUnits := by
    rw [← hCarried, carried, flatMap_toUnits_ofUnits fun u hu => ?_]
    obtain ⟨c, -, hMem⟩ := List.mem_flatMap.mp hu
    exact toUnits_lt c u hMem
  have hScalar : t.IsScalar := by
    intro c hc
    cases c with
    | scalar c => rfl
    | surrogate offset =>
        have hOffset := offset.isLt
        have hUnit : 0xD800 + offset.val ∈ s.flatMap toUnits := by
          rw [← hUnits]
          refine List.mem_flatMap_of_mem hc ?_
          rw [toUnits_of_narrow (by show 0xD800 + offset.val < 0x10000; omega)]
          exact List.mem_singleton_self _
        obtain ⟨d, hd, hMem⟩ := List.mem_flatMap.mp hUnit
        have hLow := hBelow d hd
        rw [toUnits_of_narrow (by omega), List.mem_singleton] at hMem
        omega
  rw [← hCarried, carried_of_isScalar hScalar]

end Utf16

end Bearer
