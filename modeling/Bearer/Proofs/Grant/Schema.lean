import Bearer.Grant
import Bearer.Proofs.Json.Nesting

/-! A body grants a token exactly if it is a document of an object with a text that is not empty as its last
`access_token` and a positive integer as its last `expires_in`. -/

namespace Bearer.Grant

/-- A value stands in a list of members, and no other behind it has its name. -/
def IsLast (name : Text) (v : Json) (pairs : List (Text × Json)) : Prop :=
  ∃ before after, pairs = before ++ (name, v) :: after ∧ ∀ m ∈ after, m.1 ≠ name

/-- A body is a document of a value, with at most `limit` containers open at once. -/
def IsDocumentOf (limit : Nat) (p : Json.Part) (body : Bytes) : Prop :=
  ∃ t, Json.decode body = .ok t ∧ Json.IsDocument limit p t

/-- A body grants a token for a number of seconds. -/
def Meets (limit : Nat) (body : Bytes) (token : Text) (seconds : Int) : Prop :=
  ∃ pairs, IsDocumentOf limit (.object pairs) body ∧
    IsLast "access_token" (.string token) pairs ∧ token ≠ [] ∧
    IsLast "expires_in" (.int seconds) pairs ∧ 0 < seconds

/-- The first condition that a body fails, told by the wording of its error. -/
inductive FirstFault (limit : Nat) (body : Bytes) : Text → Prop where
  | notJson {why : Json.DocumentError} (hOther : ∀ v, ¬IsDocumentOf limit (.value v) body)
      (hWhy : Json.ofBytes body limit = .error why) (hShallow : ∀ container, why ≠ .tooDeep container) :
      FirstFault limit body (("Token response is not JSON: " : Text) ++ why.message)
  | notObject {v : Json} (hValue : IsDocumentOf limit (.value v) body)
      (hOther : ∀ pairs, ¬IsDocumentOf limit (.object pairs) body) :
      FirstFault limit body "Token response is not a JSON object"
  | missingToken {pairs : List (Text × Json)} (hPairs : IsDocumentOf limit (.object pairs) body)
      (hToken : ∀ token, token ≠ [] → ¬IsLast "access_token" (.string token) pairs) :
      FirstFault limit body "Token response is missing access_token"
  | missingExpiry {pairs : List (Text × Json)} {token : Text} (hPairs : IsDocumentOf limit (.object pairs) body)
      (hToken : IsLast "access_token" (.string token) pairs) (hSome : token ≠ [])
      (hExpiry : ∀ seconds, ¬IsLast "expires_in" (.int seconds) pairs) :
      FirstFault limit body "Token response is missing expires_in"
  | nonPositiveExpiry {pairs : List (Text × Json)} {token : Text} {seconds : Int}
      (hPairs : IsDocumentOf limit (.object pairs) body)
      (hToken : IsLast "access_token" (.string token) pairs) (hSome : token ≠ [])
      (hExpiry : IsLast "expires_in" (.int seconds) pairs) (hSign : seconds ≤ 0) :
      FirstFault limit body (("Token response has a non-positive expires_in: " : Text) ++ Decimal.ofInt seconds)

/-- Of members with one name, the object has the last. -/
theorem get?_ofList_eq_some_iff {name : Text} {v : Json} {pairs : List (Text × Json)} :
    (Entries.ofList pairs).get? name = some v ↔ IsLast name v pairs := by
  rw [Entries.get?_ofList, Entries.get?_eq_some_iff]
  constructor
  · rintro ⟨after, before, hPairs, hOthers⟩
    refine ⟨before.reverse, after.reverse, ?_, fun m hm => hOthers m (List.mem_reverse.mp hm)⟩
    have hSame := congrArg List.reverse hPairs
    simpa using hSame
  · rintro ⟨before, after, rfl, hOthers⟩
    exact ⟨after.reverse, before.reverse, by simp, fun m hm => hOthers m (List.mem_reverse.mp hm)⟩

theorem token?_of_isLast {pairs : List (Text × Json)} {token : Text}
    (hToken : IsLast "access_token" (.string token) pairs) (hSome : token ≠ []) :
    token? (Entries.ofList pairs) = some ⟨token, hSome⟩ :=
  token?_eq_some_iff.mpr (get?_ofList_eq_some_iff.mpr hToken)

theorem ofMembers_of_token {members : Entries Json} {token : { t : Text // t ≠ [] }}
    (hToken : token? members = some token) {seconds : Int}
    (hExpiry : members.get? "expires_in" = some (.int seconds)) :
    ofMembers members = if h : 0 < seconds then .ok ⟨token.val, seconds, token.property, h⟩
      else .error (.nonPositiveExpiry seconds) := by
  rw [ofMembers, hToken]
  rw [hExpiry]

theorem ofMembers_of_no_token {members : Entries Json} (hToken : token? members = none) :
    ofMembers members = .error .missingToken := by
  rw [ofMembers, hToken]

theorem ofMembers_of_no_expiry {members : Entries Json} {token : { t : Text // t ≠ [] }}
    (hToken : token? members = some token) (hExpiry : ∀ seconds, members.get? "expires_in" ≠ some (.int seconds)) :
    ofMembers members = .error .missingExpiry := by
  rw [ofMembers, hToken]
  dsimp only
  split
  · next seconds hGet => exact absurd hGet (hExpiry seconds)
  · rfl

variable {limit : Nat} {body : Bytes} {pairs : List (Text × Json)} {token : Text} {seconds : Int}

theorem read_of_isDocumentOf (hPairs : IsDocumentOf limit (.object pairs) body) :
    read body limit = (ofMembers (Entries.ofList pairs)).mapError .malformed := by
  have hBody := Json.ofBytes_eq_object_iff.mpr ⟨pairs, rfl, hPairs⟩
  rw [read, hBody]

/-- What grants a token is read as it. -/
theorem Meets.read (h : Meets limit body token seconds) :
    ∃ g, Grant.read body limit = .ok g ∧ g.token = token ∧ g.seconds = seconds := by
  obtain ⟨pairs, hPairs, hToken, hSome, hExpiry, hPositive⟩ := h
  rw [read_of_isDocumentOf hPairs, ofMembers_of_token (token?_of_isLast hToken hSome)
    (get?_ofList_eq_some_iff.mpr hExpiry), dif_pos hPositive]
  exact ⟨_, rfl, rfl, rfl⟩

/-- What is refused fails the condition that is told, and none before it. -/
theorem FirstFault.read {message : Text} (h : FirstFault limit body message) :
    ∃ e, Grant.read body limit = .error (.malformed e) ∧ e.message = message := by
  cases h with
  | @notJson why _ hWhy hShallow =>
      rw [Grant.read, hWhy]
      cases why with
      | tooDeep container => exact absurd rfl (hShallow container)
      | _ => exact ⟨_, rfl, rfl⟩
  | @notObject v hValue hOther =>
      have hBody := Json.ofBytes_eq_ok_iff.mpr hValue
      rw [Grant.read, hBody]
      cases v with
      | object members =>
          obtain ⟨pairs, -, hPairs⟩ := Json.ofBytes_eq_object_iff.mp hBody
          exact absurd hPairs (hOther pairs)
      | _ => exact ⟨_, rfl, rfl⟩
  | @missingToken pairs hPairs hToken =>
      have hNone : token? (Entries.ofList pairs) = none := by
        rw [Option.eq_none_iff_forall_ne_some]
        intro token hSome
        exact hToken token token.property (get?_ofList_eq_some_iff.mp (token?_eq_some_iff.mp hSome))
      rw [read_of_isDocumentOf hPairs, ofMembers_of_no_token hNone]
      exact ⟨_, rfl, rfl⟩
  | @missingExpiry pairs token hPairs hToken hSome hExpiry =>
      rw [read_of_isDocumentOf hPairs, ofMembers_of_no_expiry (token?_of_isLast hToken hSome)
        fun seconds hGet => hExpiry seconds (get?_ofList_eq_some_iff.mp hGet)]
      exact ⟨_, rfl, rfl⟩
  | @nonPositiveExpiry pairs token seconds hPairs hToken hSome hExpiry hSign =>
      rw [read_of_isDocumentOf hPairs, ofMembers_of_token (token?_of_isLast hToken hSome)
        (get?_ofList_eq_some_iff.mpr hExpiry), dif_neg (Int.not_lt.mpr hSign)]
      exact ⟨_, rfl, rfl⟩

/-- A body in which too many containers are open at once. -/
def TooDeep (limit : Nat) (body : Bytes) : Prop :=
  ∃ t, Json.decode body = .ok t ∧ limit < Json.nesting t

theorem tooDeep_of_read {container : Json.Container} (h : read body limit = .error (.tooDeep container)) :
    TooDeep limit body := by
  unfold read at h
  split at h
  · next hBody => exact Json.lt_nesting_of_ofBytes hBody
  · cases h
  · next members _ => cases hMembers : ofMembers members <;> simp [hMembers, Except.mapError] at h
  · cases h

end Bearer.Grant
