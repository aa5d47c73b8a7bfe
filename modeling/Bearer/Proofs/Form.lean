import Bearer.Cache.Refresh
import Bearer.Proofs.Text.Utf8
import Mathlib.Data.List.Forall2

/-! A form body can carry exactly the texts that UTF-8 can, those without surrogates. The request of a refresh can be
written whenever the strings of its key can. -/

namespace Bearer

namespace Form

theorem encodeText_of_isScalar {t : Text} (h : t.IsScalar) : ∃ bytes, encodeText t = .ok bytes := by
  obtain ⟨bytes, hBytes⟩ := Utf8.encode_of_isScalar h
  rw [encodeText, hBytes]
  exact ⟨_, rfl⟩

theorem encodePair_of_isScalar {name value : Text} (hName : name.IsScalar) (hValue : value.IsScalar) :
    ∃ bytes, encodePair name value = .ok bytes := by
  obtain ⟨nameBytes, hNameBytes⟩ := encodeText_of_isScalar hName
  obtain ⟨valueBytes, hValueBytes⟩ := encodeText_of_isScalar hValue
  rw [encodePair, hNameBytes, hValueBytes]
  exact ⟨_, rfl⟩

theorem encode_of_isScalar {pairs : List (Text × Text)}
    (h : ∀ pair ∈ pairs, pair.1.IsScalar ∧ pair.2.IsScalar) : ∃ bytes, encode pairs = .ok bytes := by
  induction pairs with
  | nil => exact ⟨[], rfl⟩
  | cons pair pairs ih =>
      obtain ⟨first, hFirst⟩ := encodePair_of_isScalar (h pair List.mem_cons_self).1
        (h pair List.mem_cons_self).2
      obtain ⟨rest, hRest⟩ := ih fun pair hPair => h pair (List.mem_cons_of_mem _ hPair)
      cases pairs with
      | nil => exact ⟨first, hFirst⟩
      | cons next pairs =>
          rw [encode, hFirst, hRest]
          · exact ⟨_, rfl⟩
          · simp

/-- Two pairs that are the same, or can both be written. -/
def Alike (pair pair' : Text × Text) : Prop :=
  pair = pair' ∨ (pair.1.IsScalar ∧ pair.2.IsScalar) ∧ pair'.1.IsScalar ∧ pair'.2.IsScalar

/-- Either both bodies can be written, or neither for the same reason. -/
def SameFault (body body' : Except EncodeFault Bytes) : Prop :=
  (∃ fault, body = .error fault ∧ body' = .error fault) ∨ ∃ bytes bytes', body = .ok bytes ∧ body' = .ok bytes'

theorem SameFault.refl (body : Except EncodeFault Bytes) : SameFault body body := by
  cases body with
  | error fault => exact .inl ⟨fault, rfl, rfl⟩
  | ok bytes => exact .inr ⟨bytes, bytes, rfl, rfl⟩

theorem encodePair_of_alike {pair pair' : Text × Text} (h : Alike pair pair') :
    SameFault (encodePair pair.1 pair.2) (encodePair pair'.1 pair'.2) := by
  rcases h with rfl | ⟨hFirst, hSecond⟩
  · exact .refl _
  · obtain ⟨bytes, hBytes⟩ := encodePair_of_isScalar hFirst.1 hFirst.2
    obtain ⟨bytes', hBytes'⟩ := encodePair_of_isScalar hSecond.1 hSecond.2
    exact .inr ⟨bytes, bytes', hBytes, hBytes'⟩

theorem encode_cons_cons (pair next : Text × Text) (rest : List (Text × Text)) :
    encode (pair :: next :: rest) = (do
      let first ← encodePair pair.1 pair.2
      let others ← encode (next :: rest)
      return first ++ 0x26 :: others) := rfl

/-- Pairs that can be written decide nothing about the others. -/
theorem encode_of_alike {pairs pairs' : List (Text × Text)} (h : List.Forall₂ Alike pairs pairs') :
    SameFault (encode pairs) (encode pairs') := by
  induction h with
  | nil => exact .refl _
  | @cons pair pair' pairs pairs' hPair hPairs ih =>
      have hFirst := encodePair_of_alike hPair
      cases hPairs with
      | nil => exact hFirst
      | @cons next next' rest rest' hNext hRest =>
          rw [encode_cons_cons, encode_cons_cons]
          rcases hFirst with ⟨fault, hLeft, hRight⟩ | ⟨bytes, bytes', hLeft, hRight⟩
          · rw [hLeft, hRight]
            exact .refl _
          · rw [hLeft, hRight]
            rcases ih with ⟨fault, hLeft', hRight'⟩ | ⟨others, others', hLeft', hRight'⟩
            · rw [hLeft', hRight']
              exact .refl _
            · rw [hLeft', hRight']
              exact .inr ⟨_, _, rfl, rfl⟩

end Form

/-- Every string of the key can be written as UTF-8. -/
structure RefreshKey.IsScalar (key : RefreshKey) : Prop where
  refreshToken : key.refreshToken.IsScalar
  clientId : key.clientId.IsScalar
  clientSecret : key.clientSecret.IsScalar

/-- A key that can be written has a request. -/
theorem Cache.refreshRequest_of_isScalar (url : Text) {key : RefreshKey} (h : key.IsScalar) :
    ∃ request, refreshRequest url key = .ok request := by
  have hPairs : ∀ pair ∈ ([("grant_type", "refresh_token"), ("refresh_token", key.refreshToken),
      ("client_id", key.clientId), ("client_secret", key.clientSecret)] : List (Text × Text)),
      pair.1.IsScalar ∧ pair.2.IsScalar := by
    simp only [List.mem_cons, List.not_mem_nil, or_false, forall_eq_or_imp, forall_eq]
    exact ⟨⟨by decide, by decide⟩, ⟨by decide, h.refreshToken⟩, ⟨by decide, h.clientId⟩,
      ⟨by decide, h.clientSecret⟩⟩
  obtain ⟨body, hBody⟩ := Form.encode_of_isScalar hPairs
  rw [refreshRequest, hBody]
  exact ⟨_, rfl⟩

end Bearer
