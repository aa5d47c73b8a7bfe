import Bearer.Proofs.Json.Encoding

/-! The number of containers that are open at once in a text, told by its brackets and braces alone, those in strings
left aside. -/

namespace Bearer.Json

def IsOpening (c : CodePoint) : Prop := c = .scalar '[' ∨ c = .scalar '\x7b'

def IsClosing (c : CodePoint) : Prop := c = .scalar ']' ∨ c = .scalar '\x7d'

instance (c : CodePoint) : Decidable (IsOpening c) := inferInstanceAs (Decidable (_ ∨ _))

instance (c : CodePoint) : Decidable (IsClosing c) := inferInstanceAs (Decidable (_ ∨ _))

mutual

/-- The most containers that are open at once from here on, where `opened` are open already. -/
def mostOpen (opened : Nat) : Text → Nat
  | [] => opened
  | c :: rest =>
    if c = .scalar '"' then mostOpenInString opened rest
    else if IsOpening c then mostOpen (opened + 1) rest
    else if IsClosing c then max opened (mostOpen (opened - 1) rest)
    else mostOpen opened rest

/-- The same inside of a string. -/
def mostOpenInString (opened : Nat) : Text → Nat
  | [] => opened
  | .scalar '\\' :: _ :: rest => mostOpenInString opened rest
  | c :: rest => if c = .scalar '"' then mostOpen opened rest else mostOpenInString opened rest

end

/-- The most containers that are open at once in a text. -/
def nesting (t : Text) : Nat := mostOpen 0 t

theorem le_mostOpen (t : Text) :
    ∀ opened, opened ≤ mostOpen opened t ∧ opened ≤ mostOpenInString opened t := by
  induction hLength : t.length using Nat.strongRecOn generalizing t with
  | ind n ih =>
    subst hLength
    intro opened
    constructor
    · cases t with
      | nil => exact Nat.le_refl _
      | cons c rest =>
          have hRest := ih rest.length (Nat.lt_succ_self _) rest rfl
          rw [mostOpen]
          split
          · exact (hRest opened).2
          · split
            · exact (Nat.le_succ _).trans (hRest (opened + 1)).1
            · split
              · exact Nat.le_max_left _ _
              · exact (hRest opened).1
    · unfold mostOpenInString
      split
      · exact Nat.le_refl _
      · next rest => exact (ih rest.length (Nat.lt_add_of_pos_right (Nat.zero_lt_succ 1)) rest rfl opened).2
      · next c rest _ =>
          have hRest := ih rest.length (Nat.lt_succ_self _) rest rfl opened
          split
          · exact hRest.1
          · exact hRest.2

variable {opened : Nat} {t t' rest : Text}

theorem mostOpen_quote : mostOpen opened (.scalar '"' :: t) = mostOpenInString opened t := rfl

theorem mostOpen_opening {c : CodePoint} (hOpening : IsOpening c) :
    mostOpen opened (c :: t) = mostOpen (opened + 1) t := by
  rcases hOpening with rfl | rfl <;> rfl

/-- The end of a container leaves one container less. -/
theorem mostOpen_closing {c : CodePoint} (hClosing : IsClosing c) :
    mostOpen opened t ≤ mostOpen (opened + 1) (c :: t) := by
  rcases hClosing with rfl | rfl <;> exact Nat.le_max_right _ _

/-- A code point that begins or ends neither a string nor a container. -/
def IsNeutral (c : CodePoint) : Prop := c ≠ .scalar '"' ∧ ¬IsOpening c ∧ ¬IsClosing c

instance (c : CodePoint) : Decidable (IsNeutral c) := inferInstanceAs (Decidable (_ ∧ _))

theorem mostOpen_cons {c : CodePoint} (hNeutral : IsNeutral c) : mostOpen opened (c :: t) = mostOpen opened t := by
  obtain ⟨hQuote, hOpening, hClosing⟩ := hNeutral
  rw [mostOpen, if_neg hQuote, if_neg hOpening, if_neg hClosing]

theorem mostOpen_append {u : Text} (hNeutral : ∀ c ∈ u, IsNeutral c) :
    mostOpen opened (u ++ t) = mostOpen opened t := by
  induction u with
  | nil => rfl
  | cons c u ih =>
      rw [List.cons_append, mostOpen_cons (hNeutral c List.mem_cons_self)]
      exact ih fun d hd => hNeutral d (List.mem_cons_of_mem c hd)

theorem mostOpenInString_cons {c : CodePoint} (hQuote : c ≠ .scalar '"') (hBackslash : c ≠ .scalar '\\') :
    mostOpenInString opened (c :: t) = mostOpenInString opened t := by
  rw [mostOpenInString, if_neg hQuote]
  rintro _ _ rfl
  exact absurd rfl hBackslash

theorem mostOpenInString_escape (letter : CodePoint) :
    mostOpenInString opened (.scalar '\\' :: letter :: t) = mostOpenInString opened t := by
  rw [mostOpenInString]

theorem mostOpenInString_hex4 {a b c d : CodePoint} {unit : Nat} (hUnit : hex4? a b c d = some unit) :
    mostOpenInString opened (a :: b :: c :: d :: t) = mostOpenInString opened t := by
  have hDigit {x : CodePoint} {n : Nat} (hValue : Text.hexValue? x = some n) :
      x ≠ .scalar '"' ∧ x ≠ .scalar '\\' := by
    constructor <;> rintro rfl <;> contradiction
  simp only [hex4?, Option.bind_eq_bind, Option.bind_eq_some_iff] at hUnit
  obtain ⟨_, ha, _, hb, _, hc, _, hd, -⟩ := hUnit
  rw [mostOpenInString_cons (hDigit ha).1 (hDigit ha).2, mostOpenInString_cons (hDigit hb).1 (hDigit hb).2,
    mostOpenInString_cons (hDigit hc).1 (hDigit hc).2, mostOpenInString_cons (hDigit hd).1 (hDigit hd).2]

/-- A string opens nothing. -/
theorem Characters.mostOpen {s : Text} (h : Characters s t rest) :
    mostOpenInString opened t = mostOpen opened rest := by
  induction h with
  | close rest => rfl
  | plain _ hQuote hBackslash _ ih => rw [mostOpenInString_cons hQuote hBackslash, ih]
  | short _ _ ih => rw [mostOpenInString_escape, ih]
  | unit hUnit _ _ ih => rw [mostOpenInString_escape, mostOpenInString_hex4 hUnit, ih]
  | pair hHigh hLow _ _ ih =>
      rw [mostOpenInString_escape, mostOpenInString_hex4 hHigh, mostOpenInString_escape,
        mostOpenInString_hex4 hLow, ih]

theorem Blanks.mostOpen (h : Blanks t rest) : mostOpen opened t = mostOpen opened rest := by
  induction h with
  | none => rfl
  | @more c _ _ hBlank _ ih =>
      have hNeutral : IsNeutral c := by
        simp only [Cursor.isBlank, Bool.or_eq_true, beq_iff_eq] at hBlank
        rcases hBlank with ((rfl | rfl) | rfl) | rfl <;> decide
      rw [mostOpen_cons hNeutral, ih]

theorem mostOpen_written {ds : List Nat} (hDigits : AreDigits ds) :
    mostOpen opened (written ds ++ t) = mostOpen opened t := by
  have hNeutral : ∀ d < 10, IsNeutral (Decimal.digitPoint d) := by decide
  refine mostOpen_append fun c hc => ?_
  obtain ⟨d, hd, rfl⟩ := List.mem_map.mp hc
  exact hNeutral d (hDigits d hd)

theorem Whole.areDigits {ds : List Nat} (h : Whole ds) : AreDigits ds := by
  cases h with
  | zero => simp [AreDigits]
  | digits _ hDigits => exact hDigits

theorem Number.mostOpen {v : Json} (h : Number v t rest) : mostOpen opened t = mostOpen opened rest := by
  have hMinus (negative : Bool) (t : Text) : Json.mostOpen opened (minus negative ++ t) = Json.mostOpen opened t := by
    cases negative <;> exact mostOpen_append (by decide)
  cases h with
  | int negative hWhole _ rest => rw [hMinus, mostOpen_written hWhole.areDigits]
  | @float negative _ _ _ t t' _ hWhole hFraction hExponent _ =>
      have hFirst : Json.mostOpen opened t = Json.mostOpen opened t' := by
        cases hFraction with
        | absent => rfl
        | digits _ hDigits _ => rw [mostOpen_cons (by decide), mostOpen_written hDigits]
      have hLast : Json.mostOpen opened t' = Json.mostOpen opened rest := by
        cases hExponent with
        | absent => rfl
        | @digits e _ ds t _ hLetter hSign _ hDigits =>
            have hSigned : Json.mostOpen opened t = Json.mostOpen opened (written ds ++ rest) := by
              cases hSign with
              | absent => rfl
              | plus | minus => rw [mostOpen_cons (by decide)]
            rw [mostOpen_cons (by rcases hLetter with rfl | rfl <;> decide), hSigned, mostOpen_written hDigits]
      rw [hMinus, mostOpen_written hWhole.areDigits, hFirst, hLast]

/-- How many containers a part closes that it did not open. -/
def Part.closes : Part → Nat
  | .elements _ | .members _ => 1
  | .value _ | .member _ _ | .object _ => 0

/-- Behind a part no more containers are open than in front of it, those that it closes left aside. -/
theorem Derives.mostOpen_le {depth : Nat} {p : Part} (h : Derives depth p t rest) :
    ∀ opened, mostOpen opened rest ≤ mostOpen (opened + p.closes) t := by
  have hNamed : ∀ x ∈ Json.named, ∀ c ∈ x.1, IsNeutral c := by decide
  induction h with
  | named hMem rest =>
      intro opened
      exact (mostOpen_append (hNamed _ hMem)).ge
  | number hNumber => exact fun opened => hNumber.mostOpen.ge
  | string hCharacters => exact fun opened => hCharacters.mostOpen.ge
  | emptyArray hBlanks | noMembers hBlanks =>
      intro opened
      rw [Part.closes, mostOpen_opening (by decide), hBlanks.mostOpen]
      exact mostOpen_closing (by decide)
  | array hBlanks _ ih | someMembers hBlanks _ ih =>
      intro opened
      rw [Part.closes, mostOpen_opening (by decide), hBlanks.mostOpen]
      exact ih opened
  | lastElement _ hBlanks ih | lastMember _ hBlanks ih =>
      intro opened
      refine le_trans ?_ (ih (opened + 1))
      rw [hBlanks.mostOpen]
      exact mostOpen_closing (by decide)
  | nextElement _ hBlanks hNext _ ih ih' | nextMember _ hBlanks hNext _ ih ih' =>
      intro opened
      refine (ih' opened).trans (le_trans ?_ (ih (opened + 1)))
      rw [hBlanks.mostOpen, mostOpen_cons (by decide), hNext.mostOpen, Part.closes]
  | member hName hBlanks hNext _ ih =>
      intro opened
      rw [Part.closes, mostOpen_quote, hName.mostOpen, hBlanks.mostOpen, mostOpen_cons (by decide), hNext.mostOpen]
      exact ih opened
  | object _ ih => exact ih

theorem mostOpen_skip (c : Cursor) : mostOpen opened c.skipBlanks.rest = mostOpen opened c.rest :=
  (blanks_skip c).mostOpen.symm

/-- Where the reader gives up a container too many is open. -/
structure Deepens (fuel : Nat) : Prop where
  value : ∀ {depth : Nat} {c : Cursor} {container : Container},
    readValue fuel depth c = .error (.tooDeep container) → ∀ opened, opened + depth < mostOpen opened c.rest
  elements : ∀ {depth : Nat} {c : Cursor} {container : Container},
    readElements fuel depth c = .error (.tooDeep container) → ∀ opened, opened + depth < mostOpen opened c.rest
  members : ∀ {depth : Nat} {c : Cursor} {container : Container},
    readMembers fuel depth c = .error (.tooDeep container) → ∀ opened, opened + depth < mostOpen opened c.rest

variable {fuel depth : Nat} {c : Cursor} {container : Container}

/-- Only containers are too deep. -/
theorem mapError_unreadable_ne {α : Type} (x : Except ReadError α) (container : Container) :
    x.mapError Stop.unreadable ≠ .error (.tooDeep container) := by
  cases x <;> simp [Except.mapError]

theorem Deepens.value_succ (h : Deepens fuel) (hRead : readValue (fuel + 1) depth c = .error (.tooDeep container)) :
    ∀ opened, opened + depth < mostOpen opened c.rest := by
  intro opened
  have hEmpty (rest : Text) : opened + 0 < mostOpen (opened + 1) rest := (le_mostOpen rest (opened + 1)).1
  unfold readValue at hRead
  split at hRead
  · exact absurd (map_eq_error.mp hRead) (mapError_unreadable_ne _ _)
  · next rest hText =>
      rw [hText, mostOpen_opening (.inl rfl)]
      split at hRead
      · exact hEmpty rest
      · extract_lets start at hRead
        split at hRead
        · contradiction
        · have hItems := h.elements (map_eq_error.mp hRead) (opened + 1)
          rw [mostOpen_skip] at hItems
          dsimp only at hItems
          omega
  · next rest hText =>
      rw [hText, mostOpen_opening (.inr rfl)]
      split at hRead
      · exact hEmpty rest
      · extract_lets start at hRead
        split at hRead
        · contradiction
        · have hPairs := h.members ((map_eq_error (f := fun pairs => object (Entries.ofList pairs))).mp hRead)
            (opened + 1)
          rw [mostOpen_skip] at hPairs
          dsimp only at hPairs
          omega
  · exact absurd hRead (mapError_unreadable_ne _ _)

theorem Deepens.elements_succ (h : Deepens fuel)
    (hRead : readElements (fuel + 1) depth c = .error (.tooDeep container)) :
    ∀ opened, opened + depth < mostOpen opened c.rest := by
  intro opened
  unfold readElements at hRead
  rcases bind_eq_error.mp hRead with hValue | ⟨⟨v, c'⟩, hValue, hNext⟩
  · exact h.value hValue opened
  · have hBehind := ((sound fuel).value hValue).mostOpen_le opened
    dsimp only at hNext
    split at hNext
    · contradiction
    · next rest hText =>
        have hItems := h.elements (map_eq_error.mp hNext) opened
        rw [mostOpen_skip] at hItems
        refine hItems.trans_le (le_trans ?_ hBehind)
        rw [← mostOpen_skip c', hText, mostOpen_cons (by decide)]
    · simp at hNext

theorem Deepens.members_succ (h : Deepens fuel)
    (hRead : readMembers (fuel + 1) depth c = .error (.tooDeep container)) :
    ∀ opened, opened + depth < mostOpen opened c.rest := by
  intro opened
  unfold readMembers at hRead
  split at hRead
  · next rest hText =>
      rcases bind_eq_error.mp hRead with hName | ⟨⟨name, c₁⟩, hName, hNext⟩
      · exact absurd hName (mapError_unreadable_ne _ _)
      have hString : mostOpen opened c₁.rest = mostOpen opened c.rest := by
        have hCharacters := (readString_eq_ok_iff _).mp ⟨_, mapError_eq_ok.mp hName⟩
        rw [hText, mostOpen_quote, hCharacters.mostOpen]
      dsimp only at hNext
      split at hNext
      · next rest' hColon =>
          have hAfter : mostOpen opened rest' = mostOpen opened c₁.rest := by
            rw [← mostOpen_skip c₁, hColon, mostOpen_cons (by decide)]
          rcases bind_eq_error.mp hNext with hValue | ⟨⟨v, c₂⟩, hValue, hNext⟩
          · have hValue := h.value hValue opened
            rw [mostOpen_skip] at hValue
            rwa [← hString, ← hAfter]
          have hBehind := ((sound fuel).value hValue).mostOpen_le opened
          rw [Part.closes, Nat.add_zero, mostOpen_skip, hAfter, hString] at hBehind
          split at hNext
          · contradiction
          · next rest'' hComma =>
              have hPairs := h.members (map_eq_error.mp hNext) opened
              rw [mostOpen_skip] at hPairs
              refine hPairs.trans_le (le_trans ?_ hBehind)
              rw [← mostOpen_skip c₂, hComma, mostOpen_cons (by decide)]
          · simp at hNext
      · simp at hNext
  · simp at hRead

theorem deepens (fuel : Nat) : Deepens fuel := by
  induction fuel with
  | zero => constructor <;> intros <;> simp_all [readValue, readElements, readMembers]
  | succ fuel ih => exact ⟨ih.value_succ, ih.elements_succ, ih.members_succ⟩

/-- No text is too deep before it is read. -/
theorem decode_ne_tooDeep (bytes : Bytes) (container : Container) :
    decode bytes ≠ .error (.tooDeep container) := by
  have hOther {ε : Type} (x : Except ε Text) (f : ε → DocumentError) (hNever : ∀ e, f e ≠ .tooDeep container) :
      x.mapError f ≠ .error (.tooDeep container) := by
    cases x with
    | ok t => simp [Except.mapError]
    | error e => simpa [Except.mapError] using hNever e
  unfold decode
  split <;> exact hOther _ _ (by simp)

/-- A text that is refused for a container too many is nested deeper than was allowed. -/
theorem lt_nesting_of_tooDeep (h : read t depth = .error (.tooDeep container)) : depth < nesting t := by
  unfold read at h
  rcases bind_eq_error.mp h with hValue | ⟨⟨v, c⟩, -, hNext⟩
  · have hDeep := (deepens _).value hValue 0
    rwa [mostOpen_skip, Nat.zero_add] at hDeep
  · dsimp only at hNext
    split at hNext
    · contradiction
    · simp at hNext

/-- A document that is refused for a container too many is nested deeper than was allowed. -/
theorem lt_nesting_of_ofBytes {bytes : Bytes} (h : ofBytes bytes depth = .error (.tooDeep container)) :
    ∃ t, decode bytes = .ok t ∧ depth < nesting t := by
  rw [ofBytes] at h
  rcases bind_eq_error.mp h with hDecode | ⟨t, hDecode, hRead⟩
  · exact absurd hDecode (decode_ne_tooDeep bytes container)
  · cases hStop : read t depth with
    | ok v => rw [hStop] at hRead; contradiction
    | error stop =>
        rw [hStop] at hRead
        cases stop with
        | unreadable why => simp [Except.mapError, Stop.inText] at hRead
        | tooDeep container => exact ⟨t, hDecode, lt_nesting_of_tooDeep hStop⟩

/-- Brackets without end are refused as soon as one more is open than may be. -/
theorem readValue_brackets (depth fuel position count : Nat) :
    readValue (2 * depth + 1 + fuel) depth ⟨position, List.replicate (depth + 1 + count) (.scalar '[')⟩ =
      .error (.tooDeep .array) := by
  induction depth generalizing position with
  | zero =>
      rw [Nat.mul_zero, Nat.zero_add, Nat.add_comm 1, Nat.add_comm 1]
      rfl
  | succ depth ih =>
      have hText : List.replicate (depth + 1 + 1 + count) (CodePoint.scalar '[') =
          .scalar '[' :: .scalar '[' :: List.replicate (depth + count) (.scalar '[') := by
        rw [← List.replicate_succ, ← List.replicate_succ]
        congr 1
        omega
      have hSkip : Cursor.skipBlanks ⟨position + 1, .scalar '[' :: List.replicate (depth + count) (.scalar '[')⟩ =
          ⟨position + 1, .scalar '[' :: List.replicate (depth + count) (.scalar '[')⟩ := rfl
      have hInner := ih (position + 1)
      rw [Nat.add_right_comm depth 1 count, List.replicate_succ] at hInner
      rw [hText, show 2 * (depth + 1) + 1 + fuel = (2 * depth + 1 + fuel) + 1 + 1 by omega, readValue_bracket,
        hSkip]
      rw [readElements, hInner]
      rfl

theorem read_brackets {count : Nat} (hMany : depth < count) :
    read (List.replicate count (.scalar '[')) depth = .error (.tooDeep .array) := by
  obtain ⟨more, rfl⟩ := Nat.exists_eq_add_of_lt hMany
  have hSkip : Cursor.skipBlanks ⟨0, List.replicate (depth + more + 1) (.scalar '[')⟩ =
      ⟨0, List.replicate (depth + more + 1) (.scalar '[')⟩ := by
    rw [List.replicate_succ]
    rfl
  have hRead := readValue_brackets depth (2 * more + 3) 0 more
  rw [read, hSkip, List.length_replicate, Nat.add_right_comm depth more 1,
    show 2 * (depth + 1 + more) + 2 = 2 * depth + 1 + (2 * more + 3) by omega, hRead]
  rfl

/-- The bytes of brackets without end. -/
def brackets (count : Nat) : Bytes := List.replicate count 0x5B

theorem decode_brackets {count : Nat} (hSome : 2 ≤ count) :
    decode (brackets count) = .ok (List.replicate count (.scalar '[')) := by
  obtain ⟨more, rfl⟩ := Nat.exists_eq_add_of_le hSome
  have hText : List.replicate (2 + more) (CodePoint.scalar '[') =
      .scalar '[' :: .scalar '[' :: List.replicate more (.scalar '[') := by
    rw [Nat.add_comm, List.replicate_succ, List.replicate_succ]
  have hEncode : Utf8.encode (List.replicate (2 + more) (.scalar '[')) = .ok (brackets (2 + more)) := by
    rw [Utf8.encode_eq_ok_iff]
    refine ⟨?_, ?_⟩
    · intro c hc
      rw [(List.mem_replicate.mp hc).2]
      rfl
    · have hPoint : Utf8.encodePoint (.scalar '[') = [0x5B] := rfl
      rw [List.flatMap_replicate, hPoint, List.flatten_replicate_singleton, brackets]
  rw [hText] at hEncode ⊢
  exact (decode_of_encode hEncode (by decide) (by decide)).1

theorem ofBytes_brackets {count : Nat} (hMany : depth < count) (hSome : 2 ≤ count) :
    ofBytes (brackets count) depth = .error (.tooDeep .array) := by
  rw [ofBytes, decode_brackets hSome]
  show (read _ depth).mapError _ = _
  rw [read_brackets hMany]
  rfl

end Bearer.Json
