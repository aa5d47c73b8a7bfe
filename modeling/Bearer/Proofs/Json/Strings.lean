import Bearer.Json.Printer
import Bearer.Proofs.Except
import Bearer.Proofs.Json.Grammar

/-! What is read as a string is exactly what the grammar derives as one. A string that is printed in ASCII is derived
as UTF-16 carries it. -/

namespace Bearer.Json

theorem lowSurrogate?_eq_some {t rest : Text} {low : Nat} :
    lowSurrogate? t = some (low, rest) ↔ ∃ a b c d, t = .scalar '\\' :: .scalar 'u' :: a :: b :: c :: d :: rest ∧
      rest ≠ [] ∧ hex4? a b c d = some low ∧ Utf16.IsLow low := by
  unfold lowSurrogate?
  split
  · next a b c d e tail =>
      constructor
      · intro h
        split at h
        · next n hValue =>
            split at h
            · next hLow =>
                cases h
                exact ⟨a, b, c, d, rfl, List.cons_ne_nil e tail, hValue, hLow⟩
            · contradiction
        · contradiction
      · rintro ⟨_, _, _, _, hText, hRest, hValue, hLow⟩
        cases hText
        rw [hValue]
        exact if_pos hLow
  · next hOther =>
      refine ⟨fun h => by contradiction, ?_⟩
      rintro ⟨a, b, c, d, rfl, hRest, -⟩
      obtain ⟨e, tail, rfl⟩ := List.exists_cons_of_ne_nil hRest
      exact (hOther a b c d e tail rfl).elim

theorem Characters.ne_nil {s t rest : Text} (h : Characters s t rest) : t ≠ [] := by
  cases h <;> exact List.cons_ne_nil _ _

/-- In front of the rest of a string, no escape of a second half is left out. -/
theorem lowSurrogate?_eq_none {s t rest : Text} (hRest : Characters s t rest) :
    lowSurrogate? t = none ↔ ¬LowEscape t := by
  constructor
  · rintro hNone ⟨a, b, c, d, tail, low, rfl, hValue, hLow⟩
    have hTail : tail ≠ [] := by
      rintro rfl
      cases hRest with
      | plain _ _ hBackslash _ => exact hBackslash rfl
      | short hShort _ => cases hShort
      | unit _ _ hEmpty => exact hEmpty.ne_nil rfl
    have hSome := lowSurrogate?_eq_some.mpr ⟨a, b, c, d, rfl, hTail, hValue, hLow⟩
    rw [hNone] at hSome
    contradiction
  · intro hNone
    cases hFound : lowSurrogate? t with
    | none => rfl
    | some found =>
        obtain ⟨a, b, c, d, hText, -, hValue, hLow⟩ := lowSurrogate?_eq_some.mp hFound
        exact absurd ⟨a, b, c, d, found.2, found.1, hText, hValue, hLow⟩ hNone

/-- What is read as a string is one. -/
theorem characters_of_read {opening position fuel : Nat} {t s : Text} {cursor : Cursor}
    (h : readStringBody opening position fuel t = .ok (s, cursor)) : Characters s t cursor.rest := by
  fun_induction readStringBody opening position fuel t generalizing s cursor with
  | case3 position fuel rest =>
      cases h
      exact .close rest
  | case6 position fuel a b c d e tail unit hUnit low tail' hLow ih =>
      obtain ⟨s', hRead, rfl⟩ := map_eq_ok.mp h
      split at hLow
      · next hHigh =>
          obtain ⟨a', b', c', d', hText, -, hValue, hLow⟩ := lowSurrogate?_eq_some.mp hLow
          rw [hText]
          exact .pair hUnit hValue ⟨hHigh, hLow⟩ (ih hRead)
      · contradiction
  | case7 position fuel a b c d e tail unit hUnit hLow ih =>
      obtain ⟨s', hRead, rfl⟩ := map_eq_ok.mp h
      have hRest := ih hRead
      refine .unit hUnit (fun hHigh => ?_) hRest
      rwa [if_pos hHigh, lowSurrogate?_eq_none hRest] at hLow
  | case10 position fuel letter rest hLetter c hShort ih =>
      obtain ⟨s', hRead, rfl⟩ := map_eq_ok.mp h
      exact .short hShort (ih hRead)
  | case12 position fuel c rest hQuote hLast hUnicode hBackslash hControl ih =>
      obtain ⟨s', hRead, rfl⟩ := map_eq_ok.mp h
      have hRest := ih hRead
      obtain ⟨e, tail, hTail⟩ := List.exists_cons_of_ne_nil hRest.ne_nil
      exact .plain (Nat.not_lt.mp hControl) hQuote (fun hSame => hBackslash e tail hSame hTail) hRest
  | _ => contradiction

/-- Fuel for a text that is not empty is one more than fuel for the text behind its head. -/
theorem exists_fuel_of_length_le {c : CodePoint} {t : Text} {fuel : Nat} (h : (c :: t).length ≤ fuel) :
    ∃ left, fuel = left + 1 ∧ t.length ≤ left := by
  obtain ⟨left, rfl⟩ := Nat.exists_eq_add_of_le' (Nat.lt_of_lt_of_le (Nat.succ_pos _) h)
  exact ⟨left, rfl, Nat.le_of_succ_le_succ h⟩

/-- A string is read. -/
theorem Characters.read {s t rest : Text} (h : Characters s t rest) (opening position : Nat) {fuel : Nat}
    (hFuel : t.length ≤ fuel) : ∃ stop, readStringBody opening position fuel t = .ok (s, ⟨stop, rest⟩) := by
  induction h generalizing position fuel with
  | close rest =>
      obtain ⟨fuel, rfl, -⟩ := exists_fuel_of_length_le hFuel
      exact ⟨position + 1, rfl⟩
  | @plain c s t rest hControl hQuote hBackslash hRest ih =>
      obtain ⟨fuel, rfl, hLeft⟩ := exists_fuel_of_length_le hFuel
      obtain ⟨stop, hRead⟩ := ih (position + 1) hLeft
      refine ⟨stop, ?_⟩
      rw [readStringBody, if_neg (Nat.not_lt.mpr hControl), hRead]
      · rfl
      · exact hQuote
      · exact fun hSame _ => hBackslash hSame
      · exact fun _ hSame _ => hBackslash hSame
      · exact fun _ _ hSame _ => hBackslash hSame
  | @short letter c s t rest hShort hRest ih =>
      obtain ⟨fuel, rfl, hLeft⟩ := exists_fuel_of_length_le hFuel
      simp only [List.length_cons] at hLeft
      obtain ⟨stop, hRead⟩ := ih (position + 2) (show t.length ≤ fuel by omega)
      refine ⟨stop, ?_⟩
      rw [readStringBody, hShort]
      · dsimp only
        rw [hRead]
        rfl
      · rintro rfl
        cases hShort
  | @unit a b c d unit s t rest hUnit hAlone hRest ih =>
      obtain ⟨fuel, rfl, hLeft⟩ := exists_fuel_of_length_le hFuel
      simp only [List.length_cons] at hLeft
      obtain ⟨stop, hRead⟩ := ih (position + 6) (show t.length ≤ fuel by omega)
      have hNone : (if 0xD800 ≤ unit ∧ unit < 0xDC00 then lowSurrogate? t else none) = none := by
        split
        · next hHigh => exact (lowSurrogate?_eq_none hRest).mpr (hAlone hHigh)
        · rfl
      obtain ⟨e, tail, rfl⟩ := List.exists_cons_of_ne_nil hRest.ne_nil
      refine ⟨stop, ?_⟩
      rw [readStringBody]
      rw [hUnit]
      dsimp only
      rw [hNone]
      rw [hRead]
      rfl
  | @pair a b c d a' b' c' d' high low s t rest hHigh hLow hPair hRest ih =>
      obtain ⟨fuel, rfl, hLeft⟩ := exists_fuel_of_length_le hFuel
      simp only [List.length_cons] at hLeft
      obtain ⟨stop, hRead⟩ := ih (position + 12) (show t.length ≤ fuel by omega)
      have hSome := lowSurrogate?_eq_some.mpr ⟨a', b', c', d', rfl, hRest.ne_nil, hLow, hPair.2⟩
      refine ⟨stop, ?_⟩
      rw [readStringBody]
      rw [hHigh]
      dsimp only
      rw [if_pos hPair.1, hSome]
      dsimp only
      rw [hRead]
      rfl

/-- Behind an opening quote, strings are read as the grammar has them. -/
theorem readString_eq_ok_iff (position : Nat) {t s rest : Text} :
    (∃ stop, readString ⟨position, t⟩ = .ok (s, ⟨stop, rest⟩)) ↔ Characters s t rest :=
  ⟨fun ⟨_, hRead⟩ => characters_of_read hRead, fun h => h.read _ _ (Nat.le_succ _)⟩

/-- The ways in which the printer writes a unit in ASCII. -/
inductive Spelling : Nat → Text → Prop where
  | plain (c : CodePoint) (hPrintable : 0x20 ≤ c.toNat ∧ c.toNat ≤ 0x7E) (hQuote : c ≠ .scalar '"')
      (hBackslash : c ≠ .scalar '\\') : Spelling c.toNat [c]
  | short (c : CodePoint) (escape : Text) (hShort : shortEscape? c = some escape) :
      Spelling c.toNat escape
  | unicode (u : Nat) (hUnit : u < 0x10000) : Spelling u (unitEscape u)

/-- A text that spells units one after the other. -/
inductive Spelled : List Nat → Text → Prop where
  | nil : Spelled [] []
  | cons {u : Nat} {w : Text} {us : List Nat} {t : Text} (hUnit : Spelling u w)
      (hRest : Spelled us t) : Spelled (u :: us) (w ++ t)

theorem Spelled.append {us vs : List Nat} {t t' : Text} (hFirst : Spelled us t)
    (hSecond : Spelled vs t') : Spelled (us ++ vs) (t ++ t') := by
  induction hFirst with
  | nil => exact hSecond
  | cons hUnit hRest ih =>
      rw [List.append_assoc]
      exact .cons hUnit ih

theorem Spelled.single {u : Nat} {w : Text} (hUnit : Spelling u w) : Spelled [u] w := by
  have hSpelled := Spelled.cons hUnit .nil
  rwa [List.append_nil] at hSpelled

/-- A short escape is a backslash and a letter that the reader knows. -/
theorem shortEscape?_eq_some {c : CodePoint} {escape : Text} (hShort : shortEscape? c = some escape) :
    ∃ letter, escape = [.scalar '\\', letter] ∧ letter ≠ .scalar 'u' ∧ simpleEscape? letter = some c ∧
      c.toNat < 0x80 := by
  unfold shortEscape? at hShort
  split at hShort
  all_goals first
    | cases hShort
      exact ⟨_, rfl, by decide, rfl, by decide⟩
    | cases hShort

/-- Printing spells the units of a code point. -/
theorem spelled_printPoint (c : CodePoint) : Spelled (Utf16.toUnits c) (printPoint true c) := by
  unfold printPoint
  cases hShort : shortEscape? c with
  | some escape =>
      obtain ⟨-, -, -, -, hBound⟩ := shortEscape?_eq_some hShort
      rw [Utf16.toUnits_of_narrow (by omega)]
      exact .single (.short c escape hShort)
  | none =>
      dsimp only
      split
      · by_cases hNarrow : c.toNat < 0x10000
        · rw [Utf16.toUnits_of_narrow hNarrow, List.flatMap_singleton]
          exact .single (.unicode c.toNat hNarrow)
        · obtain ⟨high, low, hUnits, hHigh, hLow, -⟩ := Utf16.toUnits_of_wide (Nat.not_lt.mp hNarrow)
          rw [hUnits]
          simp only [Utf16.IsHigh, Utf16.IsLow] at hHigh hLow
          exact .cons (.unicode high (by omega)) (.cons (.unicode low (by omega)) .nil)
      · next hPrintable =>
          simp only [not_or, true_and, Nat.not_lt] at hPrintable
          rw [Utf16.toUnits_of_narrow (by omega)]
          refine .single (.plain c hPrintable ?_ ?_)
          · rintro rfl
            cases hShort
          · rintro rfl
            cases hShort

theorem spelled_print (t : Text) : Spelled (t.flatMap Utf16.toUnits) (t.flatMap (printPoint true)) := by
  induction t with
  | nil => exact .nil
  | cons c t ih =>
      rw [List.flatMap_cons, List.flatMap_cons]
      exact (spelled_printPoint c).append ih

theorem hex4?_hex {u : Nat} (hUnit : u < 0x10000) :
    ∃ a b c d, Text.hex 4 u = [a, b, c, d] ∧ hex4? a b c d = some u := by
  refine ⟨_, _, _, _, rfl, ?_⟩
  simp only [hex4?, Text.hexValue?_hexDigit _ (Nat.mod_lt _ (by decide : 0 < 16)), Option.bind_eq_bind,
    Option.bind_some, Option.pure_def, Option.some.injEq]
  omega

theorem unitEscape_eq {u : Nat} (hUnit : u < 0x10000) :
    ∃ a b c d, unitEscape u = [.scalar '\\', .scalar 'u', a, b, c, d] ∧ hex4? a b c d = some u := by
  obtain ⟨a, b, c, d, hHex, hValue⟩ := hex4?_hex hUnit
  refine ⟨a, b, c, d, ?_, hValue⟩
  rw [unitEscape, hHex]
  rfl

/-- Halves of a pair are always escaped. -/
theorem Spelling.eq_unitEscape {u : Nat} {w : Text} (hUnit : Spelling u w) (hWide : 0x80 ≤ u) :
    w = unitEscape u := by
  cases hUnit with
  | plain c hPrintable hQuote hBackslash => omega
  | short c escape hShort =>
      obtain ⟨-, -, -, -, hBound⟩ := shortEscape?_eq_some hShort
      omega
  | unicode u hUnit => rfl

/-- Only the escape of a second half begins like one. -/
theorem Spelled.not_lowEscape {us : List Nat} {body : Text} (hSpelled : Spelled us body)
    (hAlone : ∀ v ∈ us.head?, ¬Utf16.IsLow v) (rest : Text) : ¬LowEscape (body ++ .scalar '"' :: rest) := by
  rintro ⟨a, b, c, d, tail, low, hText, hValue, hLow⟩
  cases hSpelled with
  | nil => cases hText
  | @cons u w us t hUnit hRest =>
      rw [List.append_assoc] at hText
      cases hUnit with
      | plain c hPrintable hQuote hBackslash => exact hBackslash (List.cons.inj hText).1
      | short c escape hShort =>
          obtain ⟨letter, rfl, hLetter, -⟩ := shortEscape?_eq_some hShort
          exact hLetter (List.cons.inj (List.cons.inj hText).2).1
      | unicode u hUnit =>
          obtain ⟨a', b', c', d', hEscape, hValue'⟩ := unitEscape_eq hUnit
          rw [hEscape] at hText
          cases hText
          cases hValue.symm.trans hValue'
          exact hAlone low rfl hLow

/-- A unit that is not joined to the next one stands for its own code point. -/
theorem Spelling.characters {u : Nat} {w s t rest : Text} (hUnit : Spelling u w)
    (hAlone : Utf16.IsHigh u → ¬LowEscape t) (hRest : Characters s t rest) :
    Characters ((CodePoint.ofNat? u).toList ++ s) (w ++ t) rest := by
  cases hUnit with
  | plain c hPrintable hQuote hBackslash =>
      rw [CodePoint.ofNat?_toNat]
      exact .plain hPrintable.1 hQuote hBackslash hRest
  | short c escape hShort =>
      obtain ⟨letter, rfl, -, hMeaning, -⟩ := shortEscape?_eq_some hShort
      rw [CodePoint.ofNat?_toNat]
      exact .short hMeaning hRest
  | unicode u hUnit =>
      obtain ⟨a, b, c, d, hEscape, hValue⟩ := unitEscape_eq hUnit
      rw [hEscape]
      exact .unit hValue hAlone hRest

/-- Spelled units up to a closing quote are derived as UTF-16 joins them. -/
theorem Spelled.characters {us : List Nat} {body : Text} (hSpelled : Spelled us body) (rest : Text) :
    Characters (Utf16.ofUnits us) (body ++ .scalar '"' :: rest) rest := by
  induction us using Utf16.ofUnits.induct generalizing body with
  | case1 =>
      cases hSpelled
      exact .close rest
  | case2 u =>
      cases hSpelled with
      | cons hUnit hRest =>
          cases hRest
          rw [Utf16.ofUnits, ← List.append_nil (Option.toList _), List.append_assoc]
          exact hUnit.characters (fun _ => Spelled.nil.not_lowEscape (by simp) rest) (.close rest)
  | case3 u v us hPair ih =>
      cases hSpelled with
      | cons hUnit hRest =>
          cases hRest with
          | cons hUnit' hRest =>
              obtain ⟨a, b, c, d, hEscape, hHigh⟩ := unitEscape_eq (u := u) (by omega)
              obtain ⟨a', b', c', d', hEscape', hLow⟩ := unitEscape_eq (u := v) (by omega)
              rw [Utf16.ofUnits, if_pos hPair, hUnit.eq_unitEscape (by omega), hUnit'.eq_unitEscape (by omega),
                hEscape, hEscape']
              exact .pair hHigh hLow ⟨⟨hPair.1, hPair.2.1⟩, hPair.2.2⟩ (ih hRest)
  | case4 u v us hPair ih =>
      cases hSpelled with
      | cons hUnit hRest =>
          rw [Utf16.ofUnits, if_neg hPair, List.append_assoc]
          refine hUnit.characters (fun hHigh => hRest.not_lowEscape ?_ rest) (ih hRest)
          intro v' hHead hLow
          cases hHead
          exact hPair ⟨hHigh.1, hHigh.2, hLow⟩

/-- A code point that is printed without regard to ASCII is derived as it was. -/
theorem characters_printPoint (c : CodePoint) {s t rest : Text} (hRest : Characters s t rest) :
    Characters (c :: s) (printPoint false c ++ t) rest := by
  unfold printPoint
  cases hShort : shortEscape? c with
  | some escape =>
      obtain ⟨letter, rfl, -, hMeaning, -⟩ := shortEscape?_eq_some hShort
      exact .short hMeaning hRest
  | none =>
      dsimp only
      split
      · next hControl =>
          have hUnit : c.toNat < 0x20 := by simpa using hControl
          obtain ⟨a, b, d, e, hEscape, hValue⟩ := unitEscape_eq (u := c.toNat) (by omega)
          have hDerived := Characters.unit hValue (fun hHigh => absurd hHigh.1 (by omega)) hRest
          rw [CodePoint.ofNat?_toNat] at hDerived
          rw [Utf16.toUnits_of_narrow (by omega), List.flatMap_singleton, hEscape]
          exact hDerived
      · next hPrintable =>
          simp only [Bool.false_eq_true, false_and, or_false, Nat.not_lt] at hPrintable
          refine .plain hPrintable ?_ ?_ hRest
          · rintro rfl
            cases hShort
          · rintro rfl
            cases hShort

/-- What a string is once it has been printed and read. -/
def Style.carried (style : Style) (s : Text) : Text := if style.ascii then Utf16.carried s else s

theorem Style.carried_of_isScalar (style : Style) {s : Text} (hScalar : s.IsScalar) : style.carried s = s := by
  unfold carried
  split
  · exact Utf16.carried_of_isScalar hScalar
  · rfl

/-- A printed string is derived as it is carried. -/
theorem characters_print (style : Style) (s rest : Text) :
    Characters (style.carried s) (s.flatMap (printPoint style.ascii) ++ .scalar '"' :: rest) rest := by
  unfold Style.carried
  cases style.ascii with
  | true => exact (spelled_print s).characters rest
  | false =>
      induction s with
      | nil => exact .close rest
      | cons c s ih =>
          rw [List.flatMap_cons, List.append_assoc]
          exact characters_printPoint c ih

end Bearer.Json
