import Bearer.Cache.Refresh

/-! An answer grants a token if it is a successful response with a well-formed body, in which no more containers are
open at once than may be. -/

namespace Bearer

/-- The grant of a successful response with a well-formed body. -/
def Reply.grant? (nesting : Nat) : Reply → Option Grant
  | .response r => if r.isSuccess then (Grant.read r.body nesting).toOption else none
  | _ => none

/-- A successful response with a body that opens a container too many. -/
def Reply.TooDeep (nesting : Nat) (reply : Reply) : Prop :=
  ∃ r container, reply = .response r ∧ r.isSuccess = true ∧ Grant.read r.body nesting = .error (.tooDeep container)

theorem Reply.not_tooDeep_of_grant {nesting : Nat} {reply : Reply} (hGrant : (reply.grant? nesting).isSome = true) :
    ¬reply.TooDeep nesting := by
  rintro ⟨r, container, rfl, hSuccess, hRead⟩
  simp [grant?, hSuccess, hRead, Except.toOption] at hGrant

theorem Reply.not_tooDeep_of_failed (nesting : Nat) (e : TransportError) : ¬(Reply.failed e).TooDeep nesting := by
  rintro ⟨r, container, hReply, -⟩
  cases hReply

namespace Grant

/-- The instant at which a grant that arrives at `now` expires, if it lies within the calendar. -/
def expiry? (g : Grant) (now : Instant) : Option Instant :=
  Instant.ofMicros? (now.micros + g.seconds * 1000000)

/-- The time for which a grant is good, if it is a duration. -/
def lifetime? (g : Grant) : Option Duration := Duration.ofSeconds? g.seconds

theorem expiry?_of_lifetime {g : Grant} {lifetime : Duration} (now : Instant)
    (hLifetime : g.lifetime? = some lifetime) : now.add? lifetime = g.expiry? now := by
  have hMicros := Duration.ofMicros?_eq_some.mp hLifetime
  rw [Instant.add?, expiry?, hMicros]

/-- A lifetime that is no duration reaches beyond the calendar from every instant. -/
theorem expiry?_of_no_lifetime {g : Grant} (now : Instant) (hLifetime : g.lifetime? = none) :
    g.expiry? now = none := by
  have hSeconds := g.seconds_pos
  have hNow := now.least_le
  have hWide := (Duration.ofSeconds?_eq_none (by omega)).mp hLifetime
  rw [Duration.mostSeconds] at hWide
  rw [expiry?, Instant.ofMicros?_eq_none]
  omega

end Grant

namespace Cache

variable (nesting : Nat) (margin : Duration) (key : RefreshKey) {now : Instant} (held : HeldToken)

theorem store_of_expiry {g : Grant} {expiry : Instant} (hExpiry : g.expiry? now = some expiry) :
    (store margin now held g).outcome = .token g.token ∧
      (store margin now held g).held = ⟨some g.token, some expiry⟩ := by
  unfold store
  split
  · next hLifetime => rw [g.expiry?_of_no_lifetime now hLifetime] at hExpiry; contradiction
  · next lifetime hLifetime =>
      rw [g.expiry?_of_lifetime now hLifetime, hExpiry]
      exact ⟨rfl, rfl⟩

/-- A grant that expires after the last year fails the refresh, and may leave its token. -/
theorem store_of_overrun {g : Grant} (hExpiry : g.expiry? now = none) :
    (store margin now held g).outcome = .failed .outOfRange ∧
      (store margin now held g).held =
        if g.lifetime?.isSome then { held with token := some g.token } else held := by
  unfold store
  split
  · next hLifetime =>
      change g.lifetime? = none at hLifetime
      rw [hLifetime]
      exact ⟨rfl, rfl⟩
  · next lifetime hLifetime =>
      change g.lifetime? = some lifetime at hLifetime
      rw [g.expiry?_of_lifetime now hLifetime, hExpiry, hLifetime]
      exact ⟨rfl, rfl⟩

theorem settlement_of_grant {reply : Reply} {g : Grant} (hGrant : reply.grant? nesting = some g) :
    settlement nesting margin key now held reply = store margin now held g := by
  cases reply with
  | response r =>
      simp only [Reply.grant?] at hGrant
      split at hGrant
      · next hSuccess =>
          cases hRead : Grant.read r.body nesting with
          | ok g' =>
              rw [hRead] at hGrant
              cases hGrant
              simp only [settlement, hSuccess, hRead, if_pos]
          | error refusal =>
              rw [hRead] at hGrant
              contradiction
      · contradiction
  | _ => contradiction

/-- An answer without a grant fails the refresh and stores nothing. -/
theorem settlement_of_no_grant {reply : Reply} (hGrant : reply.grant? nesting = none) :
    (∀ token, (settlement nesting margin key now held reply).outcome ≠ .token token) ∧
      (settlement nesting margin key now held reply).held = held := by
  cases reply with
  | response r =>
      simp only [settlement]
      split
      · next hSuccess =>
          cases hRead : Grant.read r.body nesting with
          | ok g =>
              simp only [Reply.grant?, hSuccess, hRead, if_pos] at hGrant
              contradiction
          | error refusal => cases refusal <;> exact ⟨fun token h => by contradiction, rfl⟩
      · exact ⟨fun token h => by contradiction, rfl⟩
  | _ => exact ⟨fun token h => by contradiction, rfl⟩

/-- A body that opens a container too many ends the refresh in the error of the reader, and nobody else is told. -/
theorem settlement_of_tooDeep {r : Response} {container : Json.Container} (hSuccess : r.isSuccess = true)
    (hRead : Grant.read r.body nesting = .error (.tooDeep container)) :
    settlement nesting margin key now held (.response r) = ⟨.failed (.tooDeep container), held, []⟩ := by
  simp only [settlement, hSuccess, hRead, if_true]

/-- An answer that ends a refresh in a token is a grant of that token, stored with its expiry. -/
theorem grant_of_token {reply : Reply} {token : Text}
    (hToken : (settlement nesting margin key now held reply).outcome = .token token) :
    ∃ g expiry, reply.grant? nesting = some g ∧ g.token = token ∧ g.expiry? now = some expiry ∧
      (settlement nesting margin key now held reply).held = ⟨some token, some expiry⟩ := by
  cases hGrant : reply.grant? nesting with
  | none => exact absurd hToken ((settlement_of_no_grant nesting margin key held hGrant).1 token)
  | some g =>
      rw [settlement_of_grant nesting margin key held hGrant] at hToken ⊢
      cases hExpiry : g.expiry? now with
      | none =>
          rw [(store_of_overrun margin held hExpiry).1] at hToken
          contradiction
      | some expiry =>
          obtain ⟨hOutcome, hHeld⟩ := store_of_expiry margin held hExpiry
          have hSame : g.token = token := Outcome.token.inj (hOutcome.symm.trans hToken)
          exact ⟨g, expiry, rfl, hSame, hExpiry, hSame ▸ hHeld⟩

/-- A lifetime that is a duration and reaches beyond the calendar fails the refresh and leaves its token. -/
theorem settlement_of_overrun (now : Instant) {reply : Reply} {token : Text} {seconds : Int}
    (hGrant : (reply.grant? nesting).map (fun g => (g.token, g.seconds)) = some (token, seconds))
    (hExpiry : Instant.ofMicros? (now.micros + seconds * 1000000) = none)
    (hLifetime : (Duration.ofSeconds? seconds).isSome = true) :
    (settlement nesting margin key now held reply).outcome = .failed .outOfRange ∧
      (settlement nesting margin key now held reply).held = { held with token := some token } := by
  obtain ⟨g, hRead, hPair⟩ := Option.map_eq_some_iff.mp hGrant
  obtain ⟨rfl, rfl⟩ := Prod.mk.inj hPair
  obtain ⟨hOutcome, hHeld⟩ := store_of_overrun margin held hExpiry
  rw [settlement_of_grant nesting margin key held hRead]
  refine ⟨hOutcome, hHeld.trans ?_⟩
  rw [Grant.lifetime?, if_pos hLifetime]

end Cache

end Bearer
