import Bearer.Json.Document
import Bearer.Proofs.Json.Numbers

/-! The reader reads a text as a value exactly if the grammar derives the value from the text. -/

namespace Bearer.Json

theorem blanks_dropWhile (t : Text) : Blanks t (t.dropWhile Cursor.isBlank) := by
  induction t with
  | nil => exact .none []
  | cons c t ih =>
      by_cases hBlank : Cursor.isBlank c = true
      · rw [List.dropWhile_cons_of_pos hBlank]
        exact .more hBlank ih
      · rw [List.dropWhile_cons_of_neg hBlank]
        exact .none _

theorem blanks_skip (c : Cursor) : Blanks c.rest c.skipBlanks.rest := blanks_dropWhile c.rest

theorem Blanks.append {blanks : Text} (hBlanks : ∀ c ∈ blanks, Cursor.isBlank c = true) (rest : Text) :
    Blanks (blanks ++ rest) rest := by
  induction blanks with
  | nil => exact .none rest
  | cons c blanks ih =>
      exact .more (hBlanks c List.mem_cons_self) (ih fun d hd => hBlanks d (List.mem_cons_of_mem c hd))

theorem Blanks.length_le {t rest : Text} (h : Blanks t rest) : rest.length ≤ t.length := by
  induction h with
  | none => exact Nat.le_refl _
  | more hBlank hRest ih => exact Nat.le_succ_of_le ih

theorem Blanks.stops {t rest : Text} (h : Blanks t rest) (hStops : Stops rest) : Stops t := by
  cases h with
  | none => exact hStops
  | more hBlank =>
      rintro c ⟨⟩
      exact .inl hBlank

/-- A text that is left by nothing but blanks stops. -/
theorem Blanks.stops_nil {t : Text} (h : Blanks t []) : Stops t := h.stops fun c hc => by cases hc

/-- Blanks are skipped up to a code point that is none. -/
theorem Blanks.skip {t rest : Text} (h : Blanks t rest) (hFirst : ∀ c ∈ rest.head?, Cursor.isBlank c = false)
    (position : Nat) : ∃ stop, Cursor.skipBlanks ⟨position, t⟩ = ⟨stop, rest⟩ := by
  have hDrop : t.dropWhile Cursor.isBlank = rest := by
    induction h with
    | none rest =>
        cases rest with
        | nil => rfl
        | cons c rest => rw [List.dropWhile_cons_of_neg (by simp [hFirst c rfl])]
    | more hBlank hRest ih =>
        rw [List.dropWhile_cons_of_pos hBlank]
        exact ih hFirst
  exact ⟨_, congrArg (Cursor.mk _) hDrop⟩

theorem derives_of_readAtom {depth : Nat} {c c' : Cursor} {v : Json} (h : readAtom c = .ok (v, c')) :
    Derives depth (.value v) c.rest c'.rest := by
  unfold readAtom at h
  split at h
  · next name v' hFound =>
      cases h
      have hPrefix := List.find?_some hFound
      obtain ⟨rest, hText⟩ := List.isPrefixOf_iff_prefix.mp hPrefix
      rw [← hText]
      rw [List.drop_left]
      exact .named (List.mem_of_find?_eq_some hFound) rest
  · exact .number (number_of_read h)

/-- Whatever is read with an amount of fuel is derived. -/
structure Sound (fuel : Nat) : Prop where
  value : ∀ {depth : Nat} {c c' : Cursor} {v : Json}, readValue fuel depth c = .ok (v, c') →
    Derives depth (.value v) c.rest c'.rest
  elements : ∀ {depth : Nat} {c c' : Cursor} {items : List Json},
    readElements fuel depth c = .ok (items, c') → Derives depth (.elements items) c.rest c'.rest
  members : ∀ {depth : Nat} {c c' : Cursor} {pairs : List (Text × Json)},
    readMembers fuel depth c = .ok (pairs, c') → Derives depth (.members pairs) c.rest c'.rest

variable {fuel depth : Nat} {c c' : Cursor}

theorem Sound.value_succ (hSound : Sound fuel) {v : Json} (h : readValue (fuel + 1) depth c = .ok (v, c')) :
    Derives depth (.value v) c.rest c'.rest := by
  unfold readValue at h
  split at h
  · next rest hText =>
      obtain ⟨s, hRead, rfl⟩ := map_eq_ok.mp h
      rw [hText]
      exact .string ((readString_eq_ok_iff _).mp ⟨_, mapError_eq_ok.mp hRead⟩)
  · next rest hText =>
      have hBlanks := blanks_skip ⟨c.position + 1, rest⟩
      rw [hText]
      split at h
      · contradiction
      · next depth =>
          extract_lets start at h
          split at h
          · next rest' hEmpty =>
              cases h
              rw [hEmpty] at hBlanks
              exact .emptyArray hBlanks
          · obtain ⟨items, hRead, rfl⟩ := map_eq_ok.mp h
            exact .array hBlanks (hSound.elements hRead)
  · next rest hText =>
      have hBlanks := blanks_skip ⟨c.position + 1, rest⟩
      rw [hText]
      split at h
      · contradiction
      · next depth =>
          extract_lets start at h
          split at h
          · next rest' hEmpty =>
              cases h
              rw [hEmpty] at hBlanks
              exact .object (.noMembers hBlanks)
          · obtain ⟨pairs, hRead, rfl⟩ := (map_eq_ok (f := fun pairs => object (Entries.ofList pairs))).mp h
            exact .object (.someMembers hBlanks (hSound.members hRead))
  · exact derives_of_readAtom (mapError_eq_ok.mp h)

theorem Sound.elements_succ (hSound : Sound fuel) {items : List Json}
    (h : readElements (fuel + 1) depth c = .ok (items, c')) :
    Derives depth (.elements items) c.rest c'.rest := by
  unfold readElements at h
  obtain ⟨⟨v, c''⟩, hRead, hNext⟩ := bind_eq_ok.mp h
  have hValue := hSound.value hRead
  have hBlanks := blanks_skip c''
  dsimp only at hNext
  split at hNext
  · next rest hText =>
      cases hNext
      rw [hText] at hBlanks
      exact .lastElement hValue hBlanks
  · next rest hText =>
      obtain ⟨items', hRead, rfl⟩ := map_eq_ok.mp hNext
      rw [hText] at hBlanks
      exact .nextElement hValue hBlanks (blanks_skip ⟨_, rest⟩) (hSound.elements hRead)
  · contradiction

theorem Sound.members_succ (hSound : Sound fuel) {pairs : List (Text × Json)}
    (h : readMembers (fuel + 1) depth c = .ok (pairs, c')) :
    Derives depth (.members pairs) c.rest c'.rest := by
  unfold readMembers at h
  split at h
  · next rest hText =>
      obtain ⟨⟨name, c₁⟩, hName, hNext⟩ := bind_eq_ok.mp h
      dsimp only at hNext
      split at hNext
      · next rest' hColon =>
          obtain ⟨⟨v, c₂⟩, hValue, hNext⟩ := bind_eq_ok.mp hNext
          have hMember : Derives depth (.member name v) c.rest c₂.rest := by
            have hBlanks := blanks_skip c₁
            rw [hColon] at hBlanks
            rw [hText]
            have hCharacters := (readString_eq_ok_iff _).mp ⟨_, mapError_eq_ok.mp hName⟩
            exact .member hCharacters hBlanks (blanks_skip ⟨_, rest'⟩) (hSound.value hValue)
          have hBlanks := blanks_skip c₂
          split at hNext
          · next rest'' hEnd =>
              cases hNext
              rw [hEnd] at hBlanks
              exact .lastMember hMember hBlanks
          · next rest'' hComma =>
              obtain ⟨pairs', hRead, rfl⟩ := map_eq_ok.mp hNext
              rw [hComma] at hBlanks
              exact .nextMember hMember hBlanks (blanks_skip ⟨_, rest''⟩) (hSound.members hRead)
          · contradiction
      · contradiction
  · contradiction

theorem sound (fuel : Nat) : Sound fuel := by
  induction fuel with
  | zero => constructor <;> intros <;> contradiction
  | succ fuel ih => exact ⟨ih.value_succ, ih.elements_succ, ih.members_succ⟩

theorem Characters.length_le {s t rest : Text} (h : Characters s t rest) : rest.length ≤ t.length := by
  induction h with
  | close => exact Nat.le_succ _
  | plain | short | unit | pair =>
      simp only [List.length_cons]
      omega

/-- The code points that a number or a name can begin with are none of those that a value, a blank or an end
is told by. -/
def IsPlainHead (c : CodePoint) : Prop :=
  Cursor.isBlank c = false ∧
    c ∉ ([.scalar '"', .scalar '[', .scalar ']', .scalar '\x7b', .scalar '\x7d'] : Text)

instance (c : CodePoint) : Decidable (IsPlainHead c) := inferInstanceAs (Decidable (_ ∧ _))

/-- A number begins with its sign, if it has one, and a digit. -/
theorem Number.head {v : Json} {t rest : Text} (h : Number v t rest) :
    ∃ negative d t', t = minus negative ++ Decimal.digitPoint d :: t' ∧ d < 10 := by
  have hDigit {ds : List Nat} (hWhole : Whole ds) : ∃ d ds', ds = d :: ds' ∧ d < 10 := by
    cases hWhole with
    | zero => exact ⟨0, [], rfl, by decide⟩
    | digits hFirst hDigits => exact ⟨_, _, rfl, hDigits _ List.mem_cons_self⟩
  cases h with
  | int negative hWhole | float negative hWhole =>
      obtain ⟨d, ds, rfl, hBound⟩ := hDigit hWhole
      exact ⟨negative, d, _, rfl, hBound⟩

/-- No name begins like a number. -/
theorem find?_named_eq_none (negative : Bool) {d : Nat} (hDigit : d < 10) (t : Text) :
    named.find? (fun x => x.1.isPrefixOf (minus negative ++ Decimal.digitPoint d :: t)) = none := by
  have hNames : ∀ x ∈ named, 2 ≤ x.1.length ∧ ∀ d < 10,
      x.1.take 1 ≠ [Decimal.digitPoint d] ∧ x.1.take 2 ≠ [.scalar '-', Decimal.digitPoint d] := by
    decide
  rw [List.find?_eq_none]
  intro x hx hPrefix
  obtain ⟨hLength, hHead⟩ := hNames x hx
  obtain ⟨rest, hText⟩ := List.isPrefixOf_iff_prefix.mp hPrefix
  have hTake (k : Nat) (hk : k ≤ x.1.length) :
      x.1.take k = (minus negative ++ Decimal.digitPoint d :: t).take k := by
    rw [← hText, List.take_append_of_le_length hk]
  cases negative with
  | false => exact (hHead d hDigit).1 (hTake 1 (Nat.le_of_succ_le hLength))
  | true => exact (hHead d hDigit).2 (hTake 2 hLength)

theorem find?_named {name : Text} {v : Json} (hNamed : (name, v) ∈ named) (rest : Text) :
    named.find? (fun x => x.1.isPrefixOf (name ++ rest)) = some (name, v) := by
  simp only [named, List.mem_cons, List.not_mem_nil, or_false, Prod.mk.injEq] at hNamed
  rcases hNamed with ⟨rfl, rfl⟩ | ⟨rfl, rfl⟩ | ⟨rfl, rfl⟩ | ⟨rfl, rfl⟩ | ⟨rfl, rfl⟩ | ⟨rfl, rfl⟩
  all_goals rfl

theorem readValue_of_plainHead {c : CodePoint} (hHead : IsPlainHead c) (fuel depth position : Nat) (t : Text) :
    readValue (fuel + 1) depth ⟨position, c :: t⟩ = (readAtom ⟨position, c :: t⟩).mapError .unreadable := by
  obtain ⟨-, hOther⟩ := hHead
  simp only [List.mem_cons, List.not_mem_nil, or_false, not_or] at hOther
  rw [readValue]
  split
  · next hText => exact absurd (List.cons.inj hText).1 hOther.1
  · next hText => exact absurd (List.cons.inj hText).1 hOther.2.1
  · next hText => exact absurd (List.cons.inj hText).1 hOther.2.2.2.1
  · rfl

/-- How a part begins: neither with a blank nor with the end of a container. -/
def Begins (t : Text) : Prop :=
  ∃ c t', t = c :: t' ∧ Cursor.isBlank c = false ∧ c ≠ .scalar ']' ∧ c ≠ .scalar '\x7d'

theorem IsPlainHead.begins {c : CodePoint} (hHead : IsPlainHead c) (t : Text) : Begins (c :: t) := by
  obtain ⟨hBlank, hOther⟩ := hHead
  simp only [List.mem_cons, List.not_mem_nil, or_false, not_or] at hOther
  exact ⟨c, t, rfl, hBlank, hOther.2.2.1, hOther.2.2.2.2⟩

theorem plainHead_of_named {name : Text} {v : Json} (hNamed : (name, v) ∈ named) :
    ∃ c t, name = c :: t ∧ IsPlainHead c := by
  simp only [named, List.mem_cons, List.not_mem_nil, or_false, Prod.mk.injEq] at hNamed
  rcases hNamed with ⟨rfl, -⟩ | ⟨rfl, -⟩ | ⟨rfl, -⟩ | ⟨rfl, -⟩ | ⟨rfl, -⟩ | ⟨rfl, -⟩
  all_goals exact ⟨_, _, rfl, by decide⟩

theorem Number.plainHead {v : Json} {t rest : Text} (h : Number v t rest) :
    ∃ c t', t = c :: t' ∧ IsPlainHead c := by
  have hDigits : ∀ d < 10, IsPlainHead (Decimal.digitPoint d) := by
    decide
  obtain ⟨negative, d, t', rfl, hDigit⟩ := h.head
  cases negative with
  | true => exact ⟨_, _, rfl, by decide⟩
  | false => exact ⟨_, _, rfl, hDigits d hDigit⟩

/-- Every part begins with something of its own. -/
theorem Derives.begins {p : Part} {t rest : Text} (h : Derives depth p t rest) : Begins t := by
  induction h with
  | named hNamed rest =>
      obtain ⟨c, t, rfl, hHead⟩ := plainHead_of_named hNamed
      exact hHead.begins _
  | number hNumber =>
      obtain ⟨c, t, rfl, hHead⟩ := hNumber.plainHead
      exact hHead.begins t
  | lastElement _ _ ih => exact ih
  | nextElement _ _ _ _ ih => exact ih
  | lastMember _ _ ih => exact ih
  | nextMember _ _ _ _ ih => exact ih
  | object _ ih => exact ih
  | string | emptyArray | array | member | noMembers | someMembers =>
      exact ⟨_, _, rfl, by decide, by decide, by decide⟩

theorem Fraction.length_le {ds : List Nat} {t rest : Text} (h : Fraction ds t rest) :
    rest.length ≤ t.length := by
  cases h with
  | absent => exact Nat.le_refl _
  | digits =>
      simp only [List.length_cons, List.length_append]
      omega

theorem Exponent.length_le {exponent : Option Int} {t rest : Text} (h : Exponent exponent t rest) :
    rest.length ≤ t.length := by
  cases h with
  | absent => exact Nat.le_refl _
  | digits _ hSign =>
      cases hSign
      all_goals
        simp only [List.length_cons, List.length_append]
        omega

theorem Number.length_le {v : Json} {t rest : Text} (h : Number v t rest) : rest.length ≤ t.length := by
  cases h with
  | int =>
      simp only [List.length_append]
      omega
  | float _ _ hFraction hExponent =>
      have hFraction := hFraction.length_le
      have hExponent := hExponent.length_le
      simp only [List.length_append]
      omega

/-- No part is longer behind than it is in front. -/
theorem Derives.length_le {p : Part} {t rest : Text} (h : Derives depth p t rest) : rest.length ≤ t.length := by
  induction h with
  | named hNamed rest =>
      rw [List.length_append]
      omega
  | number hNumber => exact hNumber.length_le
  | string hCharacters => exact Nat.le_succ_of_le hCharacters.length_le
  | emptyArray hBlanks | noMembers hBlanks =>
      have := hBlanks.length_le
      simp only [List.length_cons] at this ⊢
      omega
  | array hBlanks _ ih | someMembers hBlanks _ ih => exact Nat.le_succ_of_le (ih.trans hBlanks.length_le)
  | lastElement _ hBlanks ih | lastMember _ hBlanks ih =>
      exact (Nat.le_of_succ_le hBlanks.length_le).trans ih
  | nextElement _ hBlanks hNext _ ih ih' | nextMember _ hBlanks hNext _ ih ih' =>
      exact ih'.trans (hNext.length_le.trans ((Nat.le_of_succ_le hBlanks.length_le).trans ih))
  | member hName hBlanks hNext _ ih =>
      have hColon := (Nat.le_of_succ_le hBlanks.length_le).trans hName.length_le
      exact Nat.le_succ_of_le (ih.trans (hNext.length_le.trans hColon))
  | object _ ih => exact ih

/-- What the reader does behind the value of a member. -/
def readBehind (fuel depth : Nat) (name : Text) (v : Json) (c : Cursor) :
    Except Stop (List (Text × Json) × Cursor) :=
  match c.skipBlanks.rest with
  | .scalar '\x7d' :: rest => .ok ([(name, v)], ⟨c.skipBlanks.position + 1, rest⟩)
  | .scalar ',' :: rest => do
    let (pairs, c) ← readMembers fuel depth (Cursor.skipBlanks ⟨c.skipBlanks.position + 1, rest⟩)
    return ((name, v) :: pairs, c)
  | _ => .error (.unreadable (.unexpected .comma c.skipBlanks.position))

/-- A part is read up to what stands behind it. Of a value and a member, that must not go on with them. Two
pieces of fuel for each code point are enough. -/
def IsRead (depth : Nat) : Part → Text → Text → Prop
  | .value v, t, rest => Stops rest → ∀ position fuel, 2 * t.length ≤ fuel →
      ∃ stop, readValue fuel depth ⟨position, t⟩ = .ok (v, ⟨stop, rest⟩)
  | .elements items, t, rest => ∀ position fuel, 2 * t.length < fuel →
      ∃ stop, readElements fuel depth ⟨position, t⟩ = .ok (items, ⟨stop, rest⟩)
  | .member name v, t, rest => Stops rest → ∀ position fuel, 2 * t.length ≤ fuel →
      ∃ stop, readMembers (fuel + 1) depth ⟨position, t⟩ = readBehind fuel depth name v ⟨stop, rest⟩
  | .members pairs, t, rest => ∀ position fuel, 2 * t.length < fuel →
      ∃ stop, readMembers fuel depth ⟨position, t⟩ = .ok (pairs, ⟨stop, rest⟩)
  | .object pairs, t, rest => ∀ position fuel, 2 * t.length ≤ fuel →
      ∃ stop, readValue fuel depth ⟨position, t⟩ = .ok (.object (Entries.ofList pairs), ⟨stop, rest⟩)

theorem exists_fuel {c : CodePoint} {t : Text} {fuel : Nat} (hFuel : 2 * (c :: t).length ≤ fuel) :
    ∃ fuel', fuel = fuel' + 1 ∧ 2 * t.length < fuel' := by
  rw [List.length_cons] at hFuel
  exact ⟨fuel - 1, by omega, by omega⟩

theorem readAtom_eq (position : Nat) (t : Text) :
    readAtom ⟨position, t⟩ =
      match named.find? (fun x => x.1.isPrefixOf t) with
      | some (name, v) => .ok (v, ⟨position + name.length, t.drop name.length⟩)
      | none => readNumber ⟨position, t⟩ := rfl

theorem readValue_quote (fuel position : Nat) (t : Text) :
    readValue (fuel + 1) depth ⟨position, .scalar '"' :: t⟩ = (do
      let (s, c) ← (readString ⟨position + 1, t⟩).mapError .unreadable
      return (.string s, c)) := rfl

theorem readValue_bracket (fuel position : Nat) (t : Text) :
    readValue (fuel + 1) (depth + 1) ⟨position, .scalar '[' :: t⟩ =
      match (Cursor.skipBlanks ⟨position + 1, t⟩).rest with
      | .scalar ']' :: rest => .ok (.array [], ⟨(Cursor.skipBlanks ⟨position + 1, t⟩).position + 1, rest⟩)
      | _ => do
        let (items, c) ← readElements fuel depth (Cursor.skipBlanks ⟨position + 1, t⟩)
        return (.array items, c) := rfl

theorem readValue_brace (fuel position : Nat) (t : Text) :
    readValue (fuel + 1) (depth + 1) ⟨position, .scalar '\x7b' :: t⟩ =
      match (Cursor.skipBlanks ⟨position + 1, t⟩).rest with
      | .scalar '\x7d' :: rest => .ok (.object [], ⟨(Cursor.skipBlanks ⟨position + 1, t⟩).position + 1, rest⟩)
      | _ => do
        let (pairs, c) ← readMembers fuel depth (Cursor.skipBlanks ⟨position + 1, t⟩)
        return (.object (Entries.ofList pairs), c) := rfl

theorem readMembers_quote (fuel position : Nat) (t : Text) :
    readMembers (fuel + 1) depth ⟨position, .scalar '"' :: t⟩ = (do
      let (name, c) ← (readString ⟨position + 1, t⟩).mapError .unreadable
      match c.skipBlanks.rest with
      | .scalar ':' :: rest => do
        let (v, c) ← readValue fuel depth (Cursor.skipBlanks ⟨c.skipBlanks.position + 1, rest⟩)
        readBehind fuel depth name v c
      | _ => .error (.unreadable (.unexpected .colon c.skipBlanks.position))) := rfl

theorem isRead_named {name : Text} {v : Json} (hNamed : (name, v) ∈ named) (rest : Text) :
    IsRead depth (.value v) (name ++ rest) rest := by
  intro _ position fuel hFuel
  have hBehind : (name ++ rest).drop name.length = rest := List.drop_left
  obtain ⟨c, t, hName, hHead⟩ := plainHead_of_named hNamed
  have hEnough : 2 * (c :: (t ++ rest)).length ≤ fuel := by
    rwa [hName] at hFuel
  obtain ⟨fuel, rfl, -⟩ := exists_fuel hEnough
  have hRead := readValue_of_plainHead hHead fuel depth position (t ++ rest)
  rw [← List.cons_append, ← hName, readAtom_eq, find?_named hNamed rest] at hRead
  dsimp only at hRead
  rw [hBehind] at hRead
  exact ⟨_, hRead⟩

theorem isRead_number {v : Json} {t rest : Text} (hNumber : Number v t rest) :
    IsRead depth (.value v) t rest := by
  intro hStops position fuel hFuel
  obtain ⟨stop, hRead⟩ := hNumber.read hStops position
  obtain ⟨negative, d, t', hText, hDigit⟩ := hNumber.head
  have hNone := find?_named_eq_none negative hDigit t'
  rw [← hText] at hNone
  obtain ⟨c, t', rfl, hHead⟩ := hNumber.plainHead
  obtain ⟨fuel, rfl, -⟩ := exists_fuel hFuel
  refine ⟨stop, (readValue_of_plainHead hHead fuel depth position _).trans ?_⟩
  rw [readAtom_eq, hNone]
  exact mapError_eq_ok.mpr hRead

theorem isRead_string {s t rest : Text} (hCharacters : Characters s t rest) :
    IsRead depth (.value (.string s)) (.scalar '"' :: t) rest := by
  intro _ position fuel hFuel
  obtain ⟨fuel, rfl, -⟩ := exists_fuel hFuel
  obtain ⟨stop, hRead⟩ := (readString_eq_ok_iff (position + 1)).mpr hCharacters
  refine ⟨stop, ?_⟩
  rw [readValue_quote, hRead]
  rfl

/-- What a part begins with is not skipped. -/
theorem Begins.skip {t rest : Text} (h : Begins rest) (hBlanks : Blanks t rest) (position : Nat) :
    ∃ stop, Cursor.skipBlanks ⟨position, t⟩ = ⟨stop, rest⟩ := by
  obtain ⟨c, rest, rfl, hBlank, -⟩ := h
  exact hBlanks.skip (by rintro _ ⟨⟩; exact hBlank) position

theorem isRead_emptyArray {t rest : Text} (hBlanks : Blanks t (.scalar ']' :: rest)) :
    IsRead (depth + 1) (.value (.array [])) (.scalar '[' :: t) rest := by
  intro _ position fuel hFuel
  obtain ⟨fuel, rfl, -⟩ := exists_fuel hFuel
  obtain ⟨stop, hSkip⟩ := hBlanks.skip (by rintro c ⟨⟩; rfl) (position + 1)
  refine ⟨stop + 1, ?_⟩
  rw [readValue_bracket, hSkip]
  rfl

theorem isRead_array {items : List Json} {t t' rest : Text} (hBlanks : Blanks t t') (hBegins : Begins t')
    (hItems : IsRead depth (.elements items) t' rest) : IsRead (depth + 1) (.value (.array items)) (.scalar '[' :: t) rest := by
  intro _ position fuel hFuel
  obtain ⟨fuel, rfl, hEnough⟩ := exists_fuel hFuel
  obtain ⟨start, hSkip⟩ := hBegins.skip hBlanks (position + 1)
  obtain ⟨stop, hRead⟩ := hItems start fuel
    (Nat.lt_of_le_of_lt (Nat.mul_le_mul_left 2 hBlanks.length_le) hEnough)
  refine ⟨stop, ?_⟩
  obtain ⟨c, t', rfl, -, hBracket, -⟩ := hBegins
  rw [readValue_bracket, hSkip]
  split
  · next hText => exact absurd (List.cons.inj hText).1 hBracket
  · rw [hRead]
    rfl

theorem isRead_noMembers {t rest : Text} (hBlanks : Blanks t (.scalar '\x7d' :: rest)) :
    IsRead (depth + 1) (.object []) (.scalar '\x7b' :: t) rest := by
  intro position fuel hFuel
  obtain ⟨fuel, rfl, -⟩ := exists_fuel hFuel
  obtain ⟨stop, hSkip⟩ := hBlanks.skip (by rintro c ⟨⟩; rfl) (position + 1)
  refine ⟨stop + 1, ?_⟩
  rw [readValue_brace, hSkip]
  rfl

theorem isRead_someMembers {pairs : List (Text × Json)} {t t' rest : Text} (hBlanks : Blanks t t')
    (hBegins : Begins t') (hMembers : IsRead depth (.members pairs) t' rest) :
    IsRead (depth + 1) (.object pairs) (.scalar '\x7b' :: t) rest := by
  intro position fuel hFuel
  obtain ⟨fuel, rfl, hEnough⟩ := exists_fuel hFuel
  obtain ⟨start, hSkip⟩ := hBegins.skip hBlanks (position + 1)
  obtain ⟨stop, hRead⟩ := hMembers start fuel
    (Nat.lt_of_le_of_lt (Nat.mul_le_mul_left 2 hBlanks.length_le) hEnough)
  refine ⟨stop, ?_⟩
  obtain ⟨c, t', rfl, -, -, hBrace⟩ := hBegins
  rw [readValue_brace, hSkip]
  split
  · next hText => exact absurd (List.cons.inj hText).1 hBrace
  · rw [hRead]
    rfl

theorem isRead_lastElement {v : Json} {t t' rest : Text} (hValue : IsRead depth (.value v) t t')
    (hBlanks : Blanks t' (.scalar ']' :: rest)) : IsRead depth (.elements [v]) t rest := by
  intro position fuel hFuel
  obtain ⟨fuel, rfl⟩ := Nat.exists_eq_add_of_lt hFuel
  obtain ⟨stop, hRead⟩ := hValue (hBlanks.stops (by rintro c ⟨⟩; simp)) position (2 * t.length + fuel)
    (Nat.le_add_right _ _)
  obtain ⟨stop', hSkip⟩ := hBlanks.skip (by rintro c ⟨⟩; rfl) stop
  refine ⟨stop' + 1, ?_⟩
  rw [readElements, hRead]
  dsimp only [bind, Except.bind]
  rw [hSkip]
  rfl

theorem isRead_nextElement {v : Json} {items : List Json} {t t' t'' next rest : Text}
    (hValue : IsRead depth (.value v) t t') (hLength : t'.length ≤ t.length)
    (hBlanks : Blanks t' (.scalar ',' :: t'')) (hNext : Blanks t'' next) (hBegins : Begins next)
    (hItems : IsRead depth (.elements items) next rest) : IsRead depth (.elements (v :: items)) t rest := by
  intro position fuel hFuel
  obtain ⟨fuel, rfl⟩ := Nat.exists_eq_add_of_lt hFuel
  obtain ⟨stop, hRead⟩ := hValue (hBlanks.stops (by rintro c ⟨⟩; simp)) position (2 * t.length + fuel)
    (Nat.le_add_right _ _)
  obtain ⟨comma, hSkip⟩ := hBlanks.skip (by rintro c ⟨⟩; rfl) stop
  obtain ⟨start, hStart⟩ := hBegins.skip hNext (comma + 1)
  have hShorter := hNext.length_le
  have hComma := hBlanks.length_le
  rw [List.length_cons] at hComma
  obtain ⟨stop', hRest⟩ := hItems start (2 * t.length + fuel) (by omega)
  refine ⟨stop', ?_⟩
  rw [readElements, hRead]
  dsimp only [bind, Except.bind]
  rw [hSkip]
  show (do let (items, c) ← readElements _ depth (Cursor.skipBlanks ⟨comma + 1, t''⟩); return (v :: items, c)) = _
  rw [hStart, hRest]
  rfl

theorem isRead_member {name t t' t'' value rest : Text} {v : Json} (hName : Characters name t t')
    (hBlanks : Blanks t' (.scalar ':' :: t'')) (hNext : Blanks t'' value) (hBegins : Begins value)
    (hValue : IsRead depth (.value v) value rest) : IsRead depth (.member name v) (.scalar '"' :: t) rest := by
  intro hStops position fuel hFuel
  obtain ⟨behind, hRead⟩ := (readString_eq_ok_iff (position + 1)).mpr hName
  obtain ⟨colon, hSkip⟩ := hBlanks.skip (by rintro c ⟨⟩; rfl) behind
  obtain ⟨start, hStart⟩ := hBegins.skip hNext (colon + 1)
  have hShorter := hNext.length_le
  have hColon := hBlanks.length_le
  have hQuote := hName.length_le
  rw [List.length_cons] at hColon hFuel
  obtain ⟨stop, hRest⟩ := hValue hStops start fuel (by omega)
  refine ⟨stop, ?_⟩
  rw [readMembers_quote, hRead]
  dsimp only [bind, Except.bind, Except.mapError]
  rw [hSkip]
  show (do let (v, c) ← readValue fuel depth (Cursor.skipBlanks ⟨colon + 1, t''⟩); readBehind fuel depth name v c) = _
  rw [hStart, hRest]
  rfl

theorem isRead_lastMember {name t t' rest : Text} {v : Json} (hMember : IsRead depth (.member name v) t t')
    (hBlanks : Blanks t' (.scalar '\x7d' :: rest)) : IsRead depth (.members [(name, v)]) t rest := by
  intro position fuel hFuel
  obtain ⟨fuel, rfl⟩ := Nat.exists_eq_add_of_lt hFuel
  obtain ⟨stop, hRead⟩ := hMember (hBlanks.stops (by rintro c ⟨⟩; simp)) position (2 * t.length + fuel)
    (Nat.le_add_right _ _)
  obtain ⟨brace, hSkip⟩ := hBlanks.skip (by rintro c ⟨⟩; rfl) stop
  refine ⟨brace + 1, ?_⟩
  rw [hRead, readBehind, hSkip]
  rfl

theorem isRead_nextMember {name t t' t'' next rest : Text} {v : Json} {pairs : List (Text × Json)}
    (hMember : IsRead depth (.member name v) t t') (hLength : t'.length ≤ t.length)
    (hBlanks : Blanks t' (.scalar ',' :: t'')) (hNext : Blanks t'' next) (hBegins : Begins next)
    (hMembers : IsRead depth (.members pairs) next rest) : IsRead depth (.members ((name, v) :: pairs)) t rest := by
  intro position fuel hFuel
  obtain ⟨fuel, rfl⟩ := Nat.exists_eq_add_of_lt hFuel
  obtain ⟨stop, hRead⟩ := hMember (hBlanks.stops (by rintro c ⟨⟩; simp)) position (2 * t.length + fuel)
    (Nat.le_add_right _ _)
  obtain ⟨comma, hSkip⟩ := hBlanks.skip (by rintro c ⟨⟩; rfl) stop
  obtain ⟨start, hStart⟩ := hBegins.skip hNext (comma + 1)
  have hShorter := hNext.length_le
  have hComma := hBlanks.length_le
  rw [List.length_cons] at hComma
  obtain ⟨stop', hRest⟩ := hMembers start (2 * t.length + fuel) (by omega)
  refine ⟨stop', ?_⟩
  rw [hRead, readBehind, hSkip]
  show (do
    let (pairs, c) ← readMembers _ depth (Cursor.skipBlanks ⟨comma + 1, t''⟩)
    return ((name, v) :: pairs, c)) = _
  rw [hStart, hRest]
  rfl

theorem isRead_object {pairs : List (Text × Json)} {t rest : Text} (hObject : IsRead depth (.object pairs) t rest) :
    IsRead depth (.value (.object (Entries.ofList pairs))) t rest := fun _ => hObject

/-- What is derived is read. -/
theorem Derives.isRead {p : Part} {t rest : Text} (h : Derives depth p t rest) : IsRead depth p t rest := by
  induction h with
  | named hNamed rest => exact isRead_named hNamed rest
  | number hNumber => exact isRead_number hNumber
  | string hCharacters => exact isRead_string hCharacters
  | emptyArray hBlanks => exact isRead_emptyArray hBlanks
  | array hBlanks hItems ih => exact isRead_array hBlanks hItems.begins ih
  | lastElement hValue hBlanks ih => exact isRead_lastElement ih hBlanks
  | nextElement hValue hBlanks hNext hItems ih ih' =>
      exact isRead_nextElement ih hValue.length_le hBlanks hNext hItems.begins ih'
  | member hName hBlanks hNext hValue ih => exact isRead_member hName hBlanks hNext hValue.begins ih
  | lastMember hMember hBlanks ih => exact isRead_lastMember ih hBlanks
  | nextMember hMember hBlanks hNext hMembers ih ih' =>
      exact isRead_nextMember ih hMember.length_le hBlanks hNext hMembers.begins ih'
  | noMembers hBlanks => exact isRead_noMembers hBlanks
  | someMembers hBlanks hMembers ih => exact isRead_someMembers hBlanks hMembers.begins ih
  | object hObject ih => exact isRead_object ih

/-- A text is read as a value exactly if it is a document of the value. -/
theorem read_eq_ok_iff {t : Text} {v : Json} :
    read t depth = .ok v ↔ IsDocument depth (.value v) t := by
  unfold read
  constructor
  · intro h
    obtain ⟨⟨v', c⟩, hRead, hNext⟩ := bind_eq_ok.mp h
    dsimp only at hNext
    split at hNext
    · next hEnd =>
        cases hNext
        have hBlanks := blanks_skip c
        rw [List.isEmpty_iff.mp hEnd] at hBlanks
        exact ⟨_, _, blanks_skip ⟨0, t⟩, (sound _).value hRead, hBlanks⟩
    · contradiction
  · rintro ⟨t', rest, hBlanks, hValue, hEnd⟩
    obtain ⟨start, hStart⟩ := hValue.begins.skip hBlanks 0
    have hShorter := hBlanks.length_le
    obtain ⟨stop, hRead⟩ := hValue.isRead hEnd.stops_nil start (2 * t.length + 2) (by omega)
    obtain ⟨stop', hSkip⟩ := hEnd.skip (by rintro c ⟨⟩) stop
    rw [hStart, hRead]
    dsimp only [bind, Except.bind]
    rw [hSkip]
    rfl

/-- Only the members of an object are an object. -/
theorem Derives.object_inv {members : List (Text × Json)} {t rest : Text}
    (h : Derives depth (.value (.object members)) t rest) :
    ∃ pairs, members = Entries.ofList pairs ∧ Derives depth (.object pairs) t rest := by
  cases h with
  | named hNamed =>
      rw [Json.named] at hNamed
      simp only [List.mem_cons, List.not_mem_nil, Prod.mk.injEq, reduceCtorEq, and_false, or_self] at hNamed
  | number hNumber => cases hNumber
  | object hObject => exact ⟨_, rfl, hObject⟩

/-- A text is read as an object exactly if it is a document of members that amount to it. -/
theorem read_eq_object_iff {t : Text} {members : List (Text × Json)} :
    read t depth = .ok (.object members) ↔ ∃ pairs, members = Entries.ofList pairs ∧ IsDocument depth (.object pairs) t := by
  rw [read_eq_ok_iff]
  constructor
  · rintro ⟨t', rest, hBlanks, hObject, hEnd⟩
    obtain ⟨pairs, hMembers, hPairs⟩ := hObject.object_inv
    exact ⟨pairs, hMembers, t', rest, hBlanks, hPairs, hEnd⟩
  · rintro ⟨pairs, rfl, t', rest, hBlanks, hObject, hEnd⟩
    exact ⟨t', rest, hBlanks, .object hObject, hEnd⟩

/-- Bytes are read as a value exactly if they are the bytes of a document of it. -/
theorem ofBytes_eq_ok_iff {bytes : Bytes} {v : Json} :
    ofBytes bytes depth = .ok v ↔ ∃ t, decode bytes = .ok t ∧ IsDocument depth (.value v) t := by
  rw [ofBytes, bind_eq_ok]
  refine exists_congr fun t => and_congr_right fun _ => ?_
  rw [← read_eq_ok_iff]
  cases read t depth with
  | ok v' => simp only [Except.mapError, Except.ok.injEq]
  | error why => exact iff_of_false (by rintro ⟨⟩) (by rintro ⟨⟩)

theorem ofBytes_eq_object_iff {bytes : Bytes} {members : List (Text × Json)} :
    ofBytes bytes depth = .ok (.object members) ↔
      ∃ pairs, members = Entries.ofList pairs ∧ ∃ t, decode bytes = .ok t ∧ IsDocument depth (.object pairs) t := by
  rw [ofBytes_eq_ok_iff]
  constructor
  · rintro ⟨t, hDecode, hDocument⟩
    obtain ⟨pairs, hMembers, hPairs⟩ := read_eq_object_iff.mp (read_eq_ok_iff.mpr hDocument)
    exact ⟨pairs, hMembers, t, hDecode, hPairs⟩
  · rintro ⟨pairs, hMembers, t, hDecode, hPairs⟩
    exact ⟨t, hDecode, read_eq_ok_iff.mp (read_eq_object_iff.mpr ⟨pairs, hMembers, hPairs⟩)⟩

end Bearer.Json
