import Bearer.Proofs.Cache.Boundary
import Bearer.Proofs.Form
import Bearer.Proofs.Form.RoundTrip

/-! The body of a request for a token tells the key that it was written for: read as a form it has four pairs, the
last three of which are the strings of the key, whatever stands in them. -/

namespace Bearer.Cache

/-- The body of a request is the form of the kind of the grant and the strings of the key. -/
theorem encode_of_refreshRequest {url : Text} {key : RefreshKey} {request : Request}
    (hRequest : refreshRequest url key = .ok request) :
    Form.encode [("grant_type", "refresh_token"), ("refresh_token", key.refreshToken),
      ("client_id", key.clientId), ("client_secret", key.clientSecret)] = .ok request.body := by
  obtain ⟨body, hBody, hRest⟩ := bind_eq_ok.mp hRequest
  cases hRest
  exact hBody

/-- Requests with one body were written for one key. -/
theorem key_of_body {url url' : Text} {key key' : RefreshKey} {request request' : Request}
    (hRequest : refreshRequest url key = .ok request) (hRequest' : refreshRequest url' key' = .ok request')
    (hBody : request'.body = request.body) : key' = key := by
  have hForm' := encode_of_refreshRequest hRequest'
  rw [hBody] at hForm'
  have hPairs := Form.encode_injective hForm' (encode_of_refreshRequest hRequest)
  simp only [List.cons.injEq, Prod.mk.injEq, true_and, and_true] at hPairs
  obtain ⟨hRefreshToken, hClientId, hClientSecret⟩ := hPairs
  cases key
  cases key'
  simp_all only

namespace State

/-- Every request of a run for a key without surrogates is the one of the key. Its body is ASCII and is read as
the four pairs, each value as it was, and no other key has this body. -/
theorem request_carries_key (cfg : Config) {key : RefreshKey} (hSource : cfg.source = .refreshable key)
    (hScalar : key.IsScalar) (clock : Instant) (held : HeldToken) (replies : List Reply) (moves : List Move) :
    ∃ request, refreshRequest cfg.url key = .ok request ∧
      (∀ sent ∈ ((start clock held replies).play cfg moves).requests, sent = request) ∧
      (∀ b ∈ request.body, b < 0x80) ∧
      Form.decode request.body = .ok [
        ("grant_type", "refresh_token"), ("refresh_token", key.refreshToken), ("client_id", key.clientId),
        ("client_secret", key.clientSecret)] ∧
      ∀ (url' : Text) (key' : RefreshKey) (request' : Request),
        refreshRequest url' key' = .ok request' → request'.body = request.body → key' = key := by
  obtain ⟨request, hRequest⟩ := refreshRequest_of_isScalar cfg.url hScalar
  have hForm := encode_of_refreshRequest hRequest
  refine ⟨request, hRequest, fun sent hSent => ?_, Form.isAscii_of_encode hForm, Form.decode_of_encode hForm,
    fun url' key' request' hRequest' hBody => key_of_body hRequest hRequest' hBody⟩
  obtain ⟨n, hRequests, -⟩ := requests_play hSource hRequest (start clock held replies) moves
  rw [hRequests] at hSent
  exact List.eq_of_mem_replicate hSent

/-- Separators in a key stay inside of it. -/
theorem separators_are_carried :
    let key : RefreshKey := ⟨"a&client_id=b", "", "=+% é\n"⟩
    let cfg : Config := { source := .refreshable key, url := Grant.defaultUrl, margin := .minute }
    let s := (start .epoch {} []).play cfg [.act (.call .token), .turn, .turn]
    ∃ request, s.requests = [request] ∧ Form.decode request.body = .ok [("grant_type", "refresh_token"),
      ("refresh_token", "a&client_id=b"), ("client_id", ""), ("client_secret", "=+% é\n")] := by
  intro key cfg s
  have hSource : cfg.source = .refreshable key := rfl
  have hOne : s.requests.length = 1 := by
    dsimp only [s, cfg, key]
    decide +kernel
  obtain ⟨sent, hRequests⟩ := List.length_eq_one_iff.mp hOne
  obtain ⟨request, -, hSent, -, hPairs, -⟩ := request_carries_key cfg hSource
    ⟨by decide, by decide, by decide⟩ .epoch {} [] [.act (.call .token), .turn, .turn]
  rw [hRequests, hSent sent (hRequests ▸ List.mem_singleton_self sent)]
  exact ⟨request, rfl, hPairs⟩

end State

end Bearer.Cache
