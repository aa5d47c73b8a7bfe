import Bearer.Proofs.Grant.Schema
import Bearer.Proofs.Json.Encoding

/-! A token response that is printed in any style and written as UTF-8, with or without a byte order mark, grants the
token and the lifetime that were printed. -/

namespace Bearer

namespace Json

/-- Nothing but itself is carried to a name below the surrogates. -/
theorem Style.eq_of_carried {style : Style} {s name : Text} (hBelow : ∀ c ∈ name, c.toNat < 0xD800)
    (hCarried : style.carried s = name) : s = name := by
  unfold carried at hCarried
  split at hCarried
  · exact Utf16.eq_of_carried hBelow hCarried
  · exact hCarried

end Json

namespace Grant

/-- Where all members of one name have one value, the last has it. -/
theorem isLast_of_mem {name : Text} {v : Json} {pairs : List (Text × Json)} (hMem : (name, v) ∈ pairs)
    (hAll : ∀ m ∈ pairs, m.1 = name → m.2 = v) : IsLast name v pairs := by
  induction pairs with
  | nil => cases hMem
  | cons m pairs ih =>
      by_cases hLater : ∃ m' ∈ pairs, m'.1 = name
      · obtain ⟨⟨_, v'⟩, hMem', rfl⟩ := hLater
        cases hAll _ (List.mem_cons_of_mem m hMem') rfl
        obtain ⟨before, after, rfl, hOthers⟩ := ih hMem' fun m' hm' => hAll m' (List.mem_cons_of_mem m hm')
        exact ⟨m :: before, after, rfl, hOthers⟩
      · obtain rfl : m = (name, v) := by
          rcases List.mem_cons.mp hMem with hHead | hTail
          · exact hHead.symm
          · exact absurd ⟨_, hTail, rfl⟩ hLater
        exact ⟨[], pairs, rfl, fun m' hm' hSame => hLater ⟨m', hm', hSame⟩⟩

/-- The member of a name that no other member has is the last of that name once it has been carried. -/
theorem isLast_carried (style : Json.Style) (name : Text) (v : Json) {members : List (Text × Json)}
    (hBelow : ∀ c ∈ name, c.toNat < 0xD800) (hMem : (name, v) ∈ members)
    (hAlone : ∀ m ∈ members, m.1 = name → m.2 = v) :
    IsLast name (v.carried style) (Json.carriedMembers style members) := by
  have hName : style.carried name = name := style.carried_of_isScalar fun c hc => by
    have hLow := hBelow c hc
    cases c with
    | scalar c => rfl
    | surrogate offset => exact absurd hLow (by simp only [CodePoint.toNat]; omega)
  rw [Json.carriedMembers_eq_map]
  refine isLast_of_mem (List.mem_map.mpr ⟨_, hMem, by rw [hName]⟩) fun m' hm' hSame => ?_
  obtain ⟨m, hm, rfl⟩ := List.mem_map.mp hm'
  rw [hAlone m hm (Json.Style.eq_of_carried hBelow hSame)]

/-- A printed token response grants what it was printed of. The token is a text without surrogates that is not
empty, the lifetime is positive and has no more digits than an integer may have, and the other members, in any
order among the two, have other names; with the object itself no more containers are nested than may be. -/
theorem read_printed_response (style : Json.Style) (depth : Nat) {token : Text} (hToken : token ≠ []) (hScalar : token.IsScalar)
    {seconds : Nat} (hPositive : 0 < seconds) (hBound : seconds < 10 ^ Json.maxDigits)
    {members further : List (Text × Json)} (hPlain : ∀ m ∈ further, Json.Plain depth m.2)
    (hOther : ∀ m ∈ further, m.1 ≠ "access_token" ∧ m.1 ≠ "expires_in")
    (hWritten : style.ascii = true ∨ ∀ m ∈ further, m.1.IsScalar ∧ m.2.IsScalar)
    (hOrder : members.Perm (("access_token", .string token) :: ("expires_in", .int seconds) :: further)) :
    ∃ bytes, Utf8.encode (Json.print style 0 (.object members)) = .ok bytes ∧
      Grant.read bytes (depth + 1) = .ok ⟨token, seconds, hToken, Int.natCast_pos.mpr hPositive⟩ ∧
      Grant.read (Json.utf8Mark ++ bytes) (depth + 1) =
        .ok ⟨token, seconds, hToken, Int.natCast_pos.mpr hPositive⟩ := by
  have hMember {m : Text × Json} : m ∈ members ↔ m = (("access_token" : Text), Json.string token) ∨
      m = (("expires_in" : Text), Json.int seconds) ∨ m ∈ further := by
    rw [hOrder.mem_iff, List.mem_cons, List.mem_cons]
  have hAllPlain : ∀ m ∈ members, Json.Plain depth m.2 := by
    intro m hm
    rcases hMember.mp hm with rfl | rfl | hm
    · exact .string token
    · exact .int hBound
    · exact hPlain m hm
  have hAllWritten : style.ascii = true ∨ (Json.object members).IsScalar := by
    refine hWritten.imp_right fun hFurther => .object (fun m hm => ?_) fun m hm => ?_
    all_goals rcases hMember.mp hm with rfl | rfl | hm
    · exact Text.isScalar_ofString "access_token"
    · exact Text.isScalar_ofString "expires_in"
    · exact (hFurther m hm).1
    · exact .string hScalar
    · exact .int seconds
    · exact (hFurther m hm).2
  have hDistinct : ("access_token" : Text) ≠ "expires_in" := by decide
  have hAccess : IsLast "access_token" (.string token) (Json.carriedMembers style members) := by
    have hLast := isLast_carried style "access_token" _ (by decide) (hMember.mpr (.inl rfl))
      fun m hm hName => ?_
    · rwa [Json.carried, style.carried_of_isScalar hScalar] at hLast
    · rcases hMember.mp hm with rfl | rfl | hm
      · rfl
      · exact absurd hName.symm hDistinct
      · exact absurd hName (hOther m hm).1
  have hExpiry : IsLast "expires_in" (.int seconds) (Json.carriedMembers style members) := by
    refine isLast_carried style "expires_in" (.int seconds) (by decide)
      (hMember.mpr (.inr (.inl rfl))) fun m hm hName => ?_
    rcases hMember.mp hm with rfl | rfl | hm
    · exact absurd hName hDistinct
    · rfl
    · exact absurd hName (hOther m hm).2
  obtain ⟨m, rest, rfl⟩ := List.exists_cons_of_ne_nil (List.ne_nil_of_mem (hMember.mpr (.inl rfl)))
  obtain ⟨bytes, hEncode, hDecode, hMarked⟩ := Json.decode_print style hAllPlain hAllWritten
  have hRead {body : Bytes} (hBody : Json.decode body = .ok (Json.print style 0 (.object (m :: rest)))) :
      Grant.read body (depth + 1) = .ok ⟨token, seconds, hToken, Int.natCast_pos.mpr hPositive⟩ := by
    have hMeets : Meets (depth + 1) body token seconds := ⟨_, ⟨_, hBody, Json.isDocument_print style hAllPlain⟩,
      hAccess, hToken, hExpiry, Int.natCast_pos.mpr hPositive⟩
    obtain ⟨g, hRead, rfl, hSeconds⟩ := hMeets.read
    rw [hRead]
    cases g
    cases hSeconds
    rfl
  exact ⟨bytes, hEncode, hRead hDecode, hRead hMarked⟩

/-- A member inside of another does not count. -/
theorem read_printed_nested :
    let inner : List (Text × Json) := [("access_token", .int (-5)), ("expires_in", .null)]
    let members : List (Text × Json) :=
      [("expires_in", .int 3600), ("inner", .object inner), ("access_token", .string "é\"\\😀")]
    ∃ bytes, Utf8.encode (Json.compact (.object members)) = .ok bytes ∧
      Grant.read bytes 2 = .ok ⟨"é\"\\😀", 3600, by decide, by decide⟩ ∧
      Grant.read (Json.utf8Mark ++ bytes) 2 = .ok ⟨"é\"\\😀", 3600, by decide, by decide⟩ := by
  intro inner members
  have hBound {k : Nat} (hSmall : k < 10 ^ 4) : k < 10 ^ Json.maxDigits :=
    Nat.lt_of_lt_of_le hSmall (Nat.pow_le_pow_right (by decide) (by decide))
  have hPlain : ∀ m ∈ [(("inner" : Text), Json.object inner)], Json.Plain (0 + 1) m.2 := by
    simp only [List.mem_singleton, forall_eq]
    refine .object ?_
    simp only [inner, List.mem_cons, List.not_mem_nil, or_false, forall_eq_or_imp, forall_eq]
    exact ⟨.int (hBound (by decide)), .null⟩
  have hOrder {a b c : Text × Json} : ([a, b] ++ [c]).Perm ([c] ++ [a, b]) := List.perm_append_comm
  exact read_printed_response {} 1 (by decide) (by decide) (by decide) (hBound (show 3600 < 10 ^ 4 by decide)) hPlain
    (by decide) (.inl rfl) hOrder

end Grant

end Bearer
