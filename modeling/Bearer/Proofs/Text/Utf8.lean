import Bearer.Text.Utf8

/-! UTF-8 carries exactly the texts without surrogates, and what it carries is read back, by the reader that stops at
surrogates and by the one that lets them through. -/

namespace Bearer.Utf8

theorem encodeFault?_eq_none (start : Nat) (t : Text) : encodeFault? start t = none ↔ t.IsScalar := by
  induction t generalizing start with
  | nil => simp [encodeFault?, Text.IsScalar]
  | cons c t ih =>
      cases c with
      | scalar c =>
          rw [encodeFault?, ih]
          simp [Text.IsScalar, CodePoint.isSurrogate]
      | surrogate offset => simp [encodeFault?, Text.IsScalar, CodePoint.isSurrogate]

/-- The bytes of one code point, of which a surrogate has none. -/
def encodePoint : CodePoint → Bytes
  | .scalar c => encodeChar c
  | .surrogate _ => []

theorem encode_eq_ok_iff {t : Text} {bytes : Bytes} :
    encode t = .ok bytes ↔ t.IsScalar ∧ bytes = t.flatMap encodePoint := by
  unfold encode
  cases hFault : encodeFault? 0 t with
  | some fault =>
      have hScalar : ¬t.IsScalar := by
        rw [← encodeFault?_eq_none 0, hFault]
        exact Option.some_ne_none fault
      simp [hScalar]
  | none =>
      rw [encodeFault?_eq_none] at hFault
      simp only [Except.ok.injEq, hFault, true_and]
      exact eq_comm

theorem encode_of_isScalar {t : Text} (h : t.IsScalar) : ∃ bytes, encode t = .ok bytes :=
  ⟨_, encode_eq_ok_iff.mpr ⟨h, rfl⟩⟩

/-- A continuation byte contributes its six bits. -/
theorem continuation_succ {low high x : Nat} (hLow : low ≤ 0x80 + x) (hHigh : 0x80 + x ≤ high) (hSix : x < 64)
    (number taken count : Nat) (rest : Bytes) :
    continuation low high number taken (count + 1) (UInt8.ofNat (0x80 + x) :: rest)
      = continuation 0x80 0xBF (number * 64 + x) (taken + 1) count rest := by
  have hByte : (UInt8.ofNat (0x80 + x)).toNat = 0x80 + x := by
    rw [UInt8.toNat_ofNat']
    exact Nat.mod_eq_of_lt (by omega)
  rw [continuation, hByte, if_pos ⟨hLow, hHigh⟩, Nat.add_sub_cancel_left]

/-- The numbers of characters are not those of surrogates. -/
theorem valid (c : Char) : c.toNat < 0xD800 ∨ 0xE000 ≤ c.toNat ∧ c.toNat < 0x110000 := by
  have hValid := c.valid
  simp only [UInt32.isValidChar, Nat.isValidChar] at hValid
  simp only [Char.toNat]
  omega

theorem lead?_two {n : Nat} (hMany : 0x80 ≤ n) (hFew : n < 0x800) :
    lead? (0xC0 + n / 64) = some ⟨1, 0x80, 0xBF, n / 64⟩ := by
  rw [lead?, if_pos (by omega), Nat.add_sub_cancel_left]

/-- The range of the second byte of three leaves out short forms and surrogates. -/
theorem lead?_three {n : Nat} (hMany : 0x800 ≤ n) (hFew : n < 0x10000) (hScalar : n < 0xD800 ∨ 0xE000 ≤ n) :
    ∃ low high, lead? (0xE0 + n / 4096) = some ⟨2, low, high, n / 4096⟩ ∧
      low ≤ 0x80 + n / 64 % 64 ∧ 0x80 + n / 64 % 64 ≤ high := by
  unfold lead?
  rw [if_neg (by omega)]
  by_cases hFirst : n / 4096 = 0
  · exact ⟨0xA0, 0xBF, by simp [hFirst], by omega, by omega⟩
  rw [if_neg (by omega)]
  by_cases hSurrogate : n / 4096 = 0xD
  · exact ⟨0x80, 0x9F, by simp [hSurrogate], by omega, by omega⟩
  rw [if_neg (by omega), if_pos (by omega)]
  exact ⟨0x80, 0xBF, by rw [Nat.add_sub_cancel_left], by omega, by omega⟩

/-- The range of the second byte of four leaves out short forms and what is no code point. -/
theorem lead?_four {n : Nat} (hMany : 0x10000 ≤ n) (hFew : n < 0x110000) :
    ∃ low high, lead? (0xF0 + n / 262144) = some ⟨3, low, high, n / 262144⟩ ∧
      low ≤ 0x80 + n / 4096 % 64 ∧ 0x80 + n / 4096 % 64 ≤ high := by
  unfold lead?
  rw [if_neg (by omega), if_neg (by omega), if_neg (by omega), if_neg (by omega)]
  by_cases hFirst : n / 262144 = 0
  · exact ⟨0x90, 0xBF, by simp [hFirst], by omega, by omega⟩
  rw [if_neg (by omega)]
  by_cases hLast : n / 262144 = 4
  · exact ⟨0x80, 0x8F, by simp [hLast], by omega, by omega⟩
  rw [if_neg (by omega), if_pos (by omega)]
  exact ⟨0x80, 0xBF, by rw [Nat.add_sub_cancel_left], by omega, by omega⟩

theorem head_of_lead {b : UInt8} (lead : Lead) (hByte : 0x80 ≤ b.toNat) (hLead : lead? b.toNat = some lead)
    (rest : Bytes) : head b rest = continuation lead.low lead.high lead.bits 0 lead.count rest := by
  rw [head, if_neg (Nat.not_lt.mpr hByte), hLead]

theorem toNat_ofNat {n : Nat} (hByte : n < 0x100) : (UInt8.ofNat n).toNat = n := by
  rw [UInt8.toNat_ofNat']
  exact Nat.mod_eq_of_lt hByte

/-- The bytes of a character are read as it. -/
theorem head_encodeChar (c : Char) : ∃ b more, encodeChar c = b :: more ∧
    ∀ rest, head b (more ++ rest) = .char c more.length := by
  have hValid := valid c
  unfold encodeChar
  dsimp only
  split
  · next hOne =>
      refine ⟨_, [], rfl, fun rest => ?_⟩
      rw [head, toNat_ofNat (by omega), if_pos hOne, Char.ofNat_toNat]
      rfl
  split
  · next hMany hTwo =>
      refine ⟨_, _, rfl, fun rest => ?_⟩
      rw [head_of_lead ⟨1, 0x80, 0xBF, c.toNat / 64⟩]
      · dsimp only
        rw [List.cons_append, continuation_succ (by omega) (by omega) (by omega), continuation]
        rw [show c.toNat / 64 * 64 + c.toNat % 64 = c.toNat by omega, Char.ofNat_toNat]
        rfl
      · rw [toNat_ofNat (by omega)]
        omega
      · rw [toNat_ofNat (by omega), lead?_two (by omega) hTwo]
  split
  · next hMany _ hThree =>
      obtain ⟨low, high, hLead, hLow, hHigh⟩ := lead?_three (n := c.toNat) (by omega) hThree (by omega)
      refine ⟨_, _, rfl, fun rest => ?_⟩
      rw [head_of_lead ⟨2, low, high, c.toNat / 4096⟩]
      · dsimp only
        rw [List.cons_append, continuation_succ hLow hHigh (by omega), List.cons_append,
          continuation_succ (by omega) (by omega) (by omega), continuation]
        rw [show (c.toNat / 4096 * 64 + c.toNat / 64 % 64) * 64 + c.toNat % 64 = c.toNat by omega,
          Char.ofNat_toNat]
        rfl
      · rw [toNat_ofNat (by omega)]
        omega
      · rw [toNat_ofNat (by omega), hLead]
  · next hMany =>
      obtain ⟨low, high, hLead, hLow, hHigh⟩ := lead?_four (n := c.toNat) (by omega) (by omega)
      refine ⟨_, _, rfl, fun rest => ?_⟩
      rw [head_of_lead ⟨3, low, high, c.toNat / 262144⟩]
      · dsimp only
        rw [List.cons_append, continuation_succ hLow hHigh (by omega), List.cons_append,
          continuation_succ (by omega) (by omega) (by omega), List.cons_append,
          continuation_succ (by omega) (by omega) (by omega), continuation]
        rw [show ((c.toNat / 262144 * 64 + c.toNat / 4096 % 64) * 64 + c.toNat / 64 % 64) * 64
          + c.toNat % 64 = c.toNat by omega, Char.ofNat_toNat]
        rfl
      · rw [toNat_ofNat (by omega)]
        omega
      · rw [toNat_ofNat (by omega), hLead]

theorem surrogate?_eq_none {b : UInt8} {rest : Bytes} (h : b.toNat = 0xED → ∀ c ∈ rest.head?, c.toNat < 0xA0) :
    surrogate? (b :: rest) = none := by
  unfold surrogate?
  split
  · next b' c d rest' hBytes =>
      obtain ⟨rfl, rfl⟩ := List.cons.inj hBytes
      rw [if_neg]
      rintro ⟨hLead, hSecond, -⟩
      have hLow := h hLead c rfl
      omega
  · rfl

/-- No character is taken for a surrogate. -/
theorem surrogate?_encodeChar (c : Char) (rest : Bytes) : surrogate? (encodeChar c ++ rest) = none := by
  have hValid := valid c
  unfold encodeChar
  dsimp only
  split
  · refine surrogate?_eq_none fun hLead => ?_
    rw [toNat_ofNat (by omega)] at hLead
    omega
  split
  · refine surrogate?_eq_none fun hLead => ?_
    rw [toNat_ofNat (by omega)] at hLead
    omega
  split
  · refine surrogate?_eq_none fun hLead => ?_
    rw [toNat_ofNat (by omega)] at hLead
    rintro _ ⟨⟩
    rw [toNat_ofNat (by omega)]
    omega
  · refine surrogate?_eq_none fun hLead => ?_
    rw [toNat_ofNat (by omega)] at hLead
    omega

/-- A character is read in front of anything. -/
theorem decodeFrom_encodeChar (passing : Bool) (start : Nat) (c : Char) (rest : Bytes) :
    decodeFrom passing start (encodeChar c ++ rest)
      = (decodeFrom passing (start + (encodeChar c).length) rest).map (.scalar c :: ·) := by
  have hNone := surrogate?_encodeChar c rest
  obtain ⟨b, more, hBytes, hHead⟩ := head_encodeChar c
  rw [hBytes, List.cons_append] at hNone ⊢
  have hSurrogate : (if passing then surrogate? (b :: (more ++ rest)) else none) = none := by
    rw [hNone, ite_self]
  rw [decodeFrom, hSurrogate]
  rw [hHead]
  dsimp only
  rw [List.drop_left, List.length_cons, Nat.add_assoc, Nat.add_comm 1]

/-- What is encoded is decoded. -/
theorem decodeFrom_of_encode (passing : Bool) {t : Text} {bytes : Bytes} (hEncode : encode t = .ok bytes)
    (start : Nat) : decodeFrom passing start bytes = .ok t := by
  obtain ⟨hScalar, rfl⟩ := encode_eq_ok_iff.mp hEncode
  clear hEncode
  induction t generalizing start with
  | nil =>
      rw [List.flatMap_nil, decodeFrom]
  | cons c t ih =>
      cases c with
      | scalar c =>
          rw [List.flatMap_cons, encodePoint, decodeFrom_encodeChar,
            ih _ fun d hd => hScalar d (List.mem_cons_of_mem _ hd)]
          rfl
      | surrogate offset => cases hScalar _ List.mem_cons_self

theorem decode_of_encode {t : Text} {bytes : Bytes} (hEncode : encode t = .ok bytes) : decode bytes = .ok t :=
  decodeFrom_of_encode false hEncode 0

theorem decodePassing_of_encode {t : Text} {bytes : Bytes} (hEncode : encode t = .ok bytes) :
    decodePassing bytes = .ok t :=
  decodeFrom_of_encode true hEncode 0

end Bearer.Utf8
