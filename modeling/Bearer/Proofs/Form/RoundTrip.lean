import Bearer.Http.Form
import Bearer.Proofs.Except
import Bearer.Proofs.Text.Utf8

/-! A written body holds ASCII alone. Neither of the two separators is left in a written name or value, so a body
comes apart where its pairs were joined, and what was written is decoded. -/

namespace Bearer.Form

/-- The bytes of written names and values: ASCII without the separators. -/
def IsWritten (b : UInt8) : Prop := b < 0x80 ∧ b ≠ 0x26 ∧ b ≠ 0x3D

instance (b : UInt8) : Decidable (IsWritten b) := inferInstanceAs (Decidable (_ ∧ _))

theorem isWritten_hexByte {n : Nat} (hDigit : n < 16) : IsWritten (hexByte n) := by
  revert n
  decide

theorem hexValue?_hexByte {n : Nat} (hDigit : n < 16) : hexValue? (hexByte n) = some n := by
  revert n
  decide

/-- A byte that stands for itself is no separator, and no sign of a byte that does not. -/
theorem isWritten_of_isUnreserved {b : UInt8} (h : isUnreserved b = true) :
    IsWritten b ∧ b ≠ 0x2B ∧ b ≠ 0x25 := by
  simp only [isUnreserved, Bool.or_eq_true, Bool.and_eq_true, decide_eq_true_eq, beq_iff_eq] at h
  unfold IsWritten
  refine ⟨⟨?_, ?_, ?_⟩, ?_, ?_⟩
  all_goals grind

theorem isWritten_encodeByte (b : UInt8) : ∀ b' ∈ encodeByte b, IsWritten b' := by
  have hBound := b.toNat_lt
  unfold encodeByte
  split
  · next hUnreserved =>
      intro b' hMem
      rw [List.mem_singleton.mp hMem]
      exact (isWritten_of_isUnreserved hUnreserved).1
  split
  · intro b' hMem
    rw [List.mem_singleton.mp hMem]
    decide
  · simp only [percent, List.mem_cons, List.not_mem_nil, or_false, forall_eq_or_imp, forall_eq]
    exact ⟨by decide, isWritten_hexByte (by omega), isWritten_hexByte (Nat.mod_lt _ (by decide))⟩

/-- A written byte is read in front of anything. -/
theorem decodeBytes_encodeByte (b : UInt8) (rest : Bytes) :
    decodeBytes (encodeByte b ++ rest) = b :: decodeBytes rest := by
  have hBound := b.toNat_lt
  unfold encodeByte
  split
  · next hUnreserved =>
      obtain ⟨-, hPlus, hPercent⟩ := isWritten_of_isUnreserved hUnreserved
      rw [List.singleton_append, decodeBytes]
      · exact hPlus
      · exact fun _ _ _ hSame _ => hPercent hSame
  split
  · next hBlank =>
      rw [hBlank]
      rfl
  · have hByte : UInt8.ofNat (b.toNat / 16 * 16 + b.toNat % 16) = b := by
      rw [Nat.div_add_mod', UInt8.ofNat_toNat]
    rw [percent, List.cons_append, List.cons_append, List.singleton_append, decodeBytes,
      hexValue?_hexByte (by omega), hexValue?_hexByte (Nat.mod_lt _ (by decide))]
    dsimp only
    rw [hByte]

theorem decodeBytes_flatMap (bytes : Bytes) : decodeBytes (bytes.flatMap encodeByte) = bytes := by
  induction bytes with
  | nil => rfl
  | cons b bytes ih => rw [List.flatMap_cons, decodeBytes_encodeByte, ih]

/-- What is written of a text holds no separator and is read as it. -/
theorem encodeText_eq_ok {t : Text} {bytes : Bytes} (hEncode : encodeText t = .ok bytes) :
    (∀ b ∈ bytes, IsWritten b) ∧ Utf8.decode (decodeBytes bytes) = .ok t := by
  obtain ⟨utf8, hUtf8, hBytes⟩ := bind_eq_ok.mp hEncode
  cases hBytes
  refine ⟨fun b hb => ?_, ?_⟩
  · obtain ⟨b', -, hMem⟩ := List.mem_flatMap.mp hb
    exact isWritten_encodeByte b' b hMem
  · rw [decodeBytes_flatMap]
    exact Utf8.decode_of_encode hUtf8

theorem takeWhile_append_cons {p : UInt8 → Bool} {bytes : Bytes} (hBytes : ∀ b ∈ bytes, p b = true) (stop : UInt8)
    (hStop : p stop = false) (rest : Bytes) :
    (bytes ++ stop :: rest).takeWhile p = bytes ∧ (bytes ++ stop :: rest).dropWhile p = stop :: rest := by
  have hNot : ¬p stop = true := by simp [hStop]
  rw [List.takeWhile_append_of_pos hBytes, List.dropWhile_append_of_pos hBytes,
    List.takeWhile_cons_of_neg hNot, List.dropWhile_cons_of_neg hNot, List.append_nil]
  exact ⟨rfl, rfl⟩

/-- What is written of a pair is ASCII without the separator of pairs, and is read as the pair. -/
theorem encodePair_eq_ok {pair : Text × Text} {bytes : Bytes} (hEncode : encodePair pair.1 pair.2 = .ok bytes) :
    (∀ b ∈ bytes, b < 0x80 ∧ b ≠ 0x26) ∧ bytes ≠ [] ∧ decodePair bytes = .ok pair := by
  obtain ⟨name, hName, hNext⟩ := bind_eq_ok.mp hEncode
  obtain ⟨value, hValue, hBytes⟩ := bind_eq_ok.mp hNext
  cases hBytes
  obtain ⟨hNameWritten, hNameRead⟩ := encodeText_eq_ok hName
  obtain ⟨hValueWritten, hValueRead⟩ := encodeText_eq_ok hValue
  refine ⟨?_, by simp, ?_⟩
  · intro b hb
    rcases List.mem_append.mp hb with hb | hb
    · exact ⟨(hNameWritten b hb).1, (hNameWritten b hb).2.1⟩
    rcases List.mem_cons.mp hb with rfl | hb
    · decide
    · exact ⟨(hValueWritten b hb).1, (hValueWritten b hb).2.1⟩
  · have hName : ∀ b ∈ name, (b != 0x3D) = true := fun b hb => bne_iff_ne.mpr (hNameWritten b hb).2.2
    obtain ⟨hTake, hDrop⟩ := takeWhile_append_cons hName 0x3D rfl value
    rw [decodePair, hTake, hDrop, List.drop_one, List.tail_cons, hNameRead, hValueRead]
    rfl

theorem splitBytes_eq_singleton {separator : UInt8} {bytes : Bytes} (h : ∀ b ∈ bytes, b ≠ separator) :
    splitBytes separator bytes = [bytes] := by
  induction bytes with
  | nil => rfl
  | cons b bytes ih =>
      rw [splitBytes, if_neg (h b List.mem_cons_self), ih fun b' hb' => h b' (List.mem_cons_of_mem b hb')]

theorem splitBytes_append_cons {separator : UInt8} {bytes : Bytes} (h : ∀ b ∈ bytes, b ≠ separator) (rest : Bytes) :
    splitBytes separator (bytes ++ separator :: rest) = bytes :: splitBytes separator rest := by
  induction bytes with
  | nil => rw [List.nil_append, splitBytes, if_pos rfl]
  | cons b bytes ih =>
      rw [List.cons_append, splitBytes, if_neg (h b List.mem_cons_self),
        ih fun b' hb' => h b' (List.mem_cons_of_mem b hb')]

/-- The pieces of a body are read as its pairs. -/
theorem encode_eq_ok {pair : Text × Text} {pairs : List (Text × Text)} {body : Bytes}
    (hEncode : encode (pair :: pairs) = .ok body) :
    (∀ b ∈ body, b < 0x80) ∧ body ≠ [] ∧ (splitBytes 0x26 body).mapM decodePair = .ok (pair :: pairs) := by
  induction pairs generalizing pair body with
  | nil =>
      obtain ⟨hWritten, hSome, hRead⟩ := encodePair_eq_ok hEncode
      rw [splitBytes_eq_singleton fun b hb => (hWritten b hb).2, List.mapM_cons, hRead]
      exact ⟨fun b hb => (hWritten b hb).1, hSome, rfl⟩
  | cons next pairs ih =>
      obtain ⟨first, hFirst, hNext⟩ := bind_eq_ok.mp hEncode
      obtain ⟨others, hOthers, hBody⟩ := bind_eq_ok.mp hNext
      cases hBody
      obtain ⟨hWritten, -, hRead⟩ := encodePair_eq_ok hFirst
      obtain ⟨hWritten', -, hRead'⟩ := ih hOthers
      refine ⟨?_, by simp, ?_⟩
      · intro b hb
        rcases List.mem_append.mp hb with hb | hb
        · exact (hWritten b hb).1
        rcases List.mem_cons.mp hb with rfl | hb
        · decide
        · exact hWritten' b hb
      · rw [splitBytes_append_cons fun b hb => (hWritten b hb).2, List.mapM_cons, hRead, hRead']
        rfl

/-- What is written is decoded. -/
theorem decode_of_encode {pairs : List (Text × Text)} {body : Bytes} (hEncode : encode pairs = .ok body) :
    decode body = .ok pairs := by
  cases pairs with
  | nil =>
      cases hEncode
      rfl
  | cons pair pairs =>
      obtain ⟨-, hSome, hRead⟩ := encode_eq_ok hEncode
      rw [decode, List.isEmpty_eq_false_iff.mpr hSome]
      exact hRead

/-- A written body is ASCII. -/
theorem isAscii_of_encode {pairs : List (Text × Text)} {body : Bytes} (hEncode : encode pairs = .ok body) :
    ∀ b ∈ body, b < 0x80 := by
  cases pairs with
  | nil =>
      cases hEncode
      exact fun b hb => nomatch hb
  | cons pair pairs => exact (encode_eq_ok hEncode).1

/-- No two lists of pairs have one body. -/
theorem encode_injective {pairs pairs' : List (Text × Text)} {body : Bytes} (hEncode : encode pairs = .ok body)
    (hEncode' : encode pairs' = .ok body) : pairs = pairs' :=
  Except.ok.inj ((decode_of_encode hEncode).symm.trans (decode_of_encode hEncode'))

end Bearer.Form
