import Bearer.Json.Printer
import Bearer.Proofs.Json.Strings
import Mathlib.Algebra.Group.Nat.Defs
import Mathlib.Data.List.TakeWhile

/-! What is read as a number is exactly what the grammar derives as one, as long as nothing stands behind it that
would make it longer. -/

namespace Bearer

namespace Decimal

theorem toNat_digitPoint {d : Nat} (hDigit : d < 10) : (digitPoint d).toNat = 0x30 + d := by
  revert d
  decide

theorem isDigit_digitPoint {d : Nat} (hDigit : d < 10) : (digitPoint d).isDigit = true := by
  rw [CodePoint.isDigit, toNat_digitPoint hDigit]
  simp
  omega

/-- The value of a digit tells the digit. -/
theorem digitPoint_of_isDigit {c : CodePoint} (hDigit : c.isDigit = true) :
    digitPoint (c.toNat - 0x30) = c ∧ c.toNat - 0x30 < 10 := by
  simp only [CodePoint.isDigit, Bool.and_eq_true, decide_eq_true_eq] at hDigit
  have hValue : c.toNat - 0x30 < 10 := by omega
  refine ⟨?_, hValue⟩
  have hNumber : (digitPoint (c.toNat - 0x30)).toNat = c.toNat := by
    rw [toNat_digitPoint hValue]
    omega
  have hSame := congrArg CodePoint.ofNat? hNumber
  rwa [CodePoint.ofNat?_toNat, CodePoint.ofNat?_toNat, Option.some.injEq] at hSame

end Decimal

namespace Json

/-- No digit stands at the head of a text. -/
def NoDigit (t : Text) : Prop := ∀ c ∈ t.head?, c.isDigit = false

theorem takeDigits_written {ds : List Nat} (hDigits : AreDigits ds) {rest : Text} (hRest : NoDigit rest) :
    Decimal.takeDigits (written ds ++ rest) = (ds, rest) := by
  have hAll : ∀ c ∈ written ds, c.isDigit = true := by
    intro c hMem
    obtain ⟨d, hd, rfl⟩ := List.mem_map.mp hMem
    exact Decimal.isDigit_digitPoint (hDigits d hd)
  have hTake : rest.takeWhile CodePoint.isDigit = [] := by
    cases rest with
    | nil => rfl
    | cons c rest => rw [List.takeWhile_cons_of_neg]; simp [hRest c rfl]
  have hDrop : rest.dropWhile CodePoint.isDigit = rest := by
    cases rest with
    | nil => rfl
    | cons c rest => rw [List.dropWhile_cons_of_neg]; simp [hRest c rfl]
  have hValues : (written ds).map (fun c => c.toNat - 0x30) = ds := by
    rw [written, List.map_map]
    refine (List.map_congr_left fun d hd => ?_).trans (List.map_id ds)
    simp only [Function.comp_apply, Decimal.toNat_digitPoint (hDigits d hd), Nat.add_sub_cancel_left, id]
  rw [Decimal.takeDigits, List.takeWhile_append_of_pos hAll, List.dropWhile_append_of_pos hAll, hTake, hDrop,
    List.append_nil, hValues]

/-- What is taken as digits is all of them. -/
theorem takeDigits_eq {t rest : Text} {ds : List Nat} (h : Decimal.takeDigits t = (ds, rest)) :
    t = written ds ++ rest ∧ AreDigits ds ∧ NoDigit rest := by
  obtain ⟨rfl, rfl⟩ := Prod.mk.inj h
  have hTaken : ∀ c ∈ t.takeWhile CodePoint.isDigit, c.isDigit = true := fun c hc =>
    List.mem_takeWhile_imp hc
  refine ⟨?_, ?_, ?_⟩
  · have hWritten : written ((t.takeWhile CodePoint.isDigit).map fun c => c.toNat - 0x30)
        = t.takeWhile CodePoint.isDigit := by
      rw [written, List.map_map]
      exact (List.map_congr_left fun c hc => (Decimal.digitPoint_of_isDigit (hTaken c hc)).1).trans
        (List.map_id _)
    rw [hWritten, List.takeWhile_append_dropWhile]
  · intro d hd
    obtain ⟨c, hc, rfl⟩ := List.mem_map.mp hd
    exact (Decimal.digitPoint_of_isDigit (hTaken c hc)).2
  · intro c hc
    have hStop := List.head?_dropWhile_not CodePoint.isDigit t
    rwa [Option.mem_def.mp hc] at hStop

theorem digitPoint_eq_zero {d : Nat} (hDigit : d < 10) : Decimal.digitPoint d = .scalar '0' ↔ d = 0 := by
  revert d
  decide

theorem whole_of_take {t rest : Text} {ds : List Nat} (h : takeWhole t = (ds, rest)) (hSome : ds ≠ []) :
    Whole ds ∧ t = written ds ++ rest := by
  unfold takeWhole at h
  split at h
  · next rest' =>
      obtain ⟨rfl, rfl⟩ := Prod.mk.inj h
      exact ⟨.zero, rfl⟩
  · next hZero =>
      obtain ⟨rfl, hDigits, -⟩ := takeDigits_eq h
      obtain ⟨d, ds, rfl⟩ := List.exists_cons_of_ne_nil hSome
      have hFirst : d ≠ 0 := fun hd =>
        hZero _ (congrArg (· :: _) ((digitPoint_eq_zero (hDigits d List.mem_cons_self)).mpr hd))
      exact ⟨.digits (Nat.pos_of_ne_zero hFirst) hDigits, rfl⟩

theorem takeWhole_written {ds : List Nat} (hWhole : Whole ds) {rest : Text} (hRest : NoDigit rest) :
    takeWhole (written ds ++ rest) = (ds, rest) := by
  cases hWhole with
  | zero => rfl
  | @digits d ds hFirst hDigits =>
      rw [← takeDigits_written hDigits hRest]
      unfold takeWhole
      split
      · next hText =>
          have hZero := (digitPoint_eq_zero (hDigits d List.mem_cons_self)).mp (List.cons.inj hText).1
          omega
      · rfl

theorem fraction_of_take {t t' : Text} {ds : List Nat} (h : takeFraction t = (ds, t')) : Fraction ds t t' := by
  unfold takeFraction at h
  split at h
  · next rest =>
      split at h
      · obtain ⟨rfl, rfl⟩ := Prod.mk.inj h
        exact .absent _
      · next ds' rest' hSome hTake =>
          obtain ⟨rfl, rfl⟩ := Prod.mk.inj h
          obtain ⟨rfl, hDigits, -⟩ := takeDigits_eq hTake
          exact .digits hSome hDigits _
  · obtain ⟨rfl, rfl⟩ := Prod.mk.inj h
    exact .absent _

theorem Fraction.take {t t' : Text} {ds : List Nat} (h : Fraction ds t t') (hDigit : NoDigit t')
    (hPoint : t'.head? ≠ some (.scalar '.')) : takeFraction t = (ds, t') := by
  cases h with
  | absent =>
      unfold takeFraction
      split
      · exact absurd rfl hPoint
      · rfl
  | digits hSome hDigits =>
      rw [takeFraction, takeDigits_written hDigits hDigit]
      obtain ⟨d, ds, rfl⟩ := List.exists_cons_of_ne_nil hSome
      rfl

theorem exponent_of_take {t t' : Text} {exponent : Option Int} (h : takeExponent t = (exponent, t')) :
    Exponent exponent t t' := by
  unfold takeExponent at h
  split at h
  · next e rest =>
      split at h
      · next hLetter =>
          split at h
          next down rest' hSign =>
          have hSpelled : ExponentSign down rest rest' := by
            split at hSign
            all_goals
              obtain ⟨rfl, rfl⟩ := Prod.mk.inj hSign
              constructor
          split at h
          · obtain ⟨rfl, rfl⟩ := Prod.mk.inj h
            exact .absent _
          · next ds rest'' hSome hTake =>
              obtain ⟨rfl, rfl⟩ := Prod.mk.inj h
              obtain ⟨rfl, hDigits, -⟩ := takeDigits_eq hTake
              exact .digits hLetter hSpelled hSome hDigits
      · obtain ⟨rfl, rfl⟩ := Prod.mk.inj h
        exact .absent _
  · obtain ⟨rfl, rfl⟩ := Prod.mk.inj h
    exact .absent _

theorem digitPoint_ne {d : Nat} (hDigit : d < 10) :
    Decimal.digitPoint d ≠ .scalar '-' ∧ Decimal.digitPoint d ≠ .scalar '+' := by
  revert d
  decide

theorem Exponent.take {t t' : Text} {exponent : Option Int} (h : Exponent exponent t t') (hDigit : NoDigit t')
    (hLetter : ∀ e, e = 'e' ∨ e = 'E' → t'.head? ≠ some (.scalar e)) : takeExponent t = (exponent, t') := by
  cases h with
  | absent =>
      unfold takeExponent
      split
      · next e rest => rw [if_neg fun hExponent => hLetter e hExponent rfl]
      · rfl
  | @digits e negative ds t rest hExponent hSign hSome hDigits =>
      have hTake := takeDigits_written hDigits hDigit
      obtain ⟨d, ds, rfl⟩ := List.exists_cons_of_ne_nil hSome
      have hFirst := digitPoint_ne (hDigits d List.mem_cons_self)
      cases hSign with
      | absent =>
          rw [takeExponent, if_pos hExponent, hTake]
          · rfl
          · exact fun _ hText => hFirst.1 (List.cons.inj hText).1
          · exact fun _ hText => hFirst.2 (List.cons.inj hText).1
      | plus =>
          rw [takeExponent, if_pos hExponent]
          rw [hTake]
          rfl
      | minus =>
          rw [takeExponent, if_pos hExponent]
          rw [hTake]
          rfl

/-- What may stand behind a value: nothing, a blank, or what goes on or ends an array or object. -/
def Stops (t : Text) : Prop := ∀ c ∈ t.head?,
  Cursor.isBlank c = true ∨ c = .scalar ',' ∨ c = .scalar ']' ∨ c = .scalar '\x7d'

theorem Stops.noDigit {t : Text} (h : Stops t) : NoDigit t := by
  intro c hc
  have hCases := h c hc
  simp only [Cursor.isBlank, Bool.or_eq_true, beq_iff_eq] at hCases
  rcases hCases with ((((rfl | rfl) | rfl) | rfl) | rfl | rfl | rfl) <;> rfl

theorem Stops.head?_ne {t : Text} (h : Stops t) {e : Char} (hOther : e ∈ ['.', 'e', 'E']) :
    t.head? ≠ some (.scalar e) := by
  intro hHead
  have hCases := h _ hHead
  simp only [List.mem_cons, List.not_mem_nil, or_false] at hOther
  rcases hOther with rfl | rfl | rfl
  all_goals
    revert hCases
    decide

/-- What is read as a number is one. -/
theorem number_of_read {c c' : Cursor} {v : Json} (h : readNumber c = .ok (v, c')) :
    Number v c.rest c'.rest := by
  unfold readNumber at h
  split at h
  next negative body hSign =>
  have hText : c.rest = minus negative ++ body := by
    split at hSign
    all_goals
      obtain ⟨rfl, rfl⟩ := Prod.mk.inj hSign
    · next rest hRest => rw [hRest]; rfl
    · rfl
  rw [hText]
  split at h
  · contradiction
  · next whole rest hSome hTake =>
      obtain ⟨hWhole, rfl⟩ := whole_of_take hTake hSome
      split at h
      next fraction rest' hFraction =>
      split at h
      next exponent rest'' hExponent =>
      split at h
      · next hInt =>
          obtain ⟨hNoFraction, hNoExponent⟩ := Bool.and_eq_true_iff.mp hInt
          rw [List.isEmpty_iff] at hNoFraction
          rw [Option.isNone_iff_eq_none] at hNoExponent
          subst hNoFraction hNoExponent
          split at h
          · contradiction
          · next hShort =>
              cases h
              have hEnd : rest = rest'' := by
                cases fraction_of_take hFraction with
                | absent => cases exponent_of_take hExponent; rfl
                | digits hSome' => exact absurd rfl hSome'
              rw [hEnd]
              exact .int negative hWhole (Nat.not_lt.mp hShort) _
      · next hFloat =>
          cases h
          refine .float negative hWhole (fraction_of_take hFraction) (exponent_of_take hExponent) ?_
          simpa [Decidable.imp_iff_not_or] using hFloat

/-- An exponent or what stands in its place goes on with neither a digit nor a fraction. -/
theorem Exponent.head {t rest : Text} {exponent : Option Int} (h : Exponent exponent t rest)
    (hRest : Stops rest) : NoDigit t ∧ t.head? ≠ some (.scalar '.') := by
  cases h with
  | absent => exact ⟨hRest.noDigit, hRest.head?_ne (by decide)⟩
  | digits hLetter =>
      rcases hLetter with rfl | rfl
      all_goals exact ⟨by rintro c ⟨⟩; rfl, by simp⟩

theorem Fraction.noDigit {t t' : Text} {ds : List Nat} (h : Fraction ds t t') (hRest : NoDigit t') :
    NoDigit t := by
  cases h with
  | absent => exact hRest
  | digits =>
      rintro c ⟨⟩
      rfl

/-- A number is read part by part. -/
theorem readNumber_eq (negative : Bool) {ds fraction : List Nat} {exponent : Option Int} {t t' rest : Text}
    (hWhole : Whole ds) (hDigit : NoDigit t) (hFraction : takeFraction t = (fraction, t'))
    (hExponent : takeExponent t' = (exponent, rest)) (position : Nat) :
    ∃ stop, readNumber ⟨position, minus negative ++ (written ds ++ t)⟩ =
      if fraction.isEmpty && exponent.isNone then
        if maxDigits < ds.length then .error (.tooManyDigits ds.length)
        else .ok (.int (signed negative (Decimal.ofDigits ds)), ⟨stop, rest⟩)
      else .ok (.float (Binary64.ofDecimal negative (Decimal.ofDigits (ds ++ fraction))
        (exponent.getD 0 - fraction.length)), ⟨stop, rest⟩) := by
  have hTake := takeWhole_written hWhole hDigit
  obtain ⟨d, ds', rfl, hFirst⟩ : ∃ d ds', ds = d :: ds' ∧ d < 10 := by
    cases hWhole with
    | zero => exact ⟨0, [], rfl, by decide⟩
    | digits _ hDigits => exact ⟨_, _, rfl, hDigits _ List.mem_cons_self⟩
  refine ⟨position + ((minus negative ++ (written (d :: ds') ++ t)).length - rest.length), ?_⟩
  unfold readNumber
  cases negative with
  | true =>
      simp only [minus, if_true, List.cons_append, List.nil_append]
      rw [hTake]
      dsimp only
      rw [hFraction]
      rw [hExponent]
      rfl
  | false =>
      -- A digit is no sign, so the text is read from the first digit on.
      have hSign : ∀ rest', written (d :: ds') ++ t ≠ .scalar '-' :: rest' :=
        fun rest' hText => (digitPoint_ne hFirst).1 (List.cons.inj hText).1
      simp only [minus, Bool.false_eq_true, if_false, List.nil_append]
      rw [hTake]
      dsimp only
      rw [hFraction]
      rw [hExponent]
      rfl

/-- A number is read, up to what stands behind it. -/
theorem Number.read {v : Json} {t rest : Text} (h : Number v t rest) (hRest : Stops rest) (position : Nat) :
    ∃ stop, readNumber ⟨position, t⟩ = .ok (v, ⟨stop, rest⟩) := by
  cases h with
  | int negative hWhole hShort =>
      have hEmpty := Exponent.head (.absent rest) hRest
      obtain ⟨stop, hRead⟩ := readNumber_eq negative hWhole hRest.noDigit
        ((Fraction.absent rest).take hEmpty.1 hEmpty.2)
        ((Exponent.absent rest).take hRest.noDigit fun e hLetter => hRest.head?_ne (by simp [hLetter]))
        position
      refine ⟨stop, hRead.trans ?_⟩
      simp only [List.isEmpty_nil, Option.isNone_none, Bool.and_self, if_true]
      exact if_neg (Nat.not_lt.mpr hShort)
  | float negative hWhole hFraction hExponent hSome =>
      obtain ⟨hDigit, hPoint⟩ := hExponent.head hRest
      obtain ⟨stop, hRead⟩ := readNumber_eq negative hWhole (hFraction.noDigit hDigit)
        (hFraction.take hDigit hPoint)
        (hExponent.take hRest.noDigit fun e hLetter => hRest.head?_ne (by simp [hLetter])) position
      refine ⟨stop, hRead.trans (if_neg ?_)⟩
      simpa [Decidable.imp_iff_not_or] using hSome

theorem areDigits_digits (n : Nat) : AreDigits (Decimal.digits n) := by
  fun_induction Decimal.digits n with
  | case1 n hSmall => simpa [AreDigits] using hSmall
  | case2 n hLarge ih =>
      intro d hd
      rcases List.mem_append.mp hd with hd | hd
      · exact ih d hd
      · rw [List.mem_singleton.mp hd]
        exact Nat.mod_lt n (by decide)

/-- The digits of a positive number begin with a positive one. -/
theorem digits_head {n : Nat} (hPositive : 0 < n) : ∃ d ds, Decimal.digits n = d :: ds ∧ 0 < d := by
  fun_induction Decimal.digits n with
  | case1 n hSmall => exact ⟨n, [], rfl, hPositive⟩
  | case2 n hLarge ih =>
      obtain ⟨d, ds, hDigits, hFirst⟩ := ih (by omega)
      exact ⟨d, ds ++ [n % 10], by rw [hDigits]; rfl, hFirst⟩

theorem whole_digits (n : Nat) : Whole (Decimal.digits n) := by
  rcases Nat.eq_zero_or_pos n with rfl | hPositive
  · rw [Decimal.digits]
    exact .zero
  · obtain ⟨d, ds, hDigits, hFirst⟩ := digits_head hPositive
    have hAll := areDigits_digits n
    rw [hDigits] at hAll ⊢
    exact .digits hFirst hAll

/-- A number below a power of ten has no more digits than the power has zeros. -/
theorem length_digits_le {n k : Nat} (hSome : 0 < k) (hBound : n < 10 ^ k) :
    (Decimal.digits n).length ≤ k := by
  fun_induction Decimal.digits n generalizing k with
  | case1 n hSmall => exact hSome
  | case2 n hLarge ih =>
      obtain ⟨k, rfl⟩ := Nat.exists_eq_add_of_le' hSome
      rw [Nat.pow_succ] at hBound
      have hMore : 0 < k := by
        rcases Nat.eq_zero_or_pos k with rfl | hMore
        · omega
        · exact hMore
      rw [List.length_append, List.length_singleton]
      exact Nat.succ_le_succ (ih hMore (by omega))

/-- A printed integer is derived as it was. -/
theorem number_print {n : Int} (hBound : n.natAbs < 10 ^ maxDigits) (rest : Text) :
    Number (.int n) (Decimal.ofInt n ++ rest) rest := by
  have hWritten (negative : Bool) (n : Nat) (hBound : n < 10 ^ maxDigits) :
      Number (.int (signed negative n)) (minus negative ++ (Decimal.ofNat n ++ rest)) rest := by
    have hNumber := Number.int negative (whole_digits n) (length_digits_le (by decide) hBound) rest
    rwa [Decimal.ofDigits_digits] at hNumber
  cases n with
  | ofNat n => exact hWritten false n hBound
  | negSucc n => exact hWritten true (n + 1) hBound

end Json

end Bearer
