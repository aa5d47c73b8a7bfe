import Bearer.Proofs.Cache.Waiting

/-! A turn serves at most one call: it performs the next step of that call, or hands it the outcome of its round trip.
-/

namespace Bearer.Cache.State

variable {cfg : Config} {s s' : State} {c d : CallId} {t : TripId} {k : Caller} {p : Phase}
  {trips : List Trip}

/-- What the step of a call makes of it, and the round trips after it. -/
inductive CallStep (cfg : Config) (c : CallId) (k : Caller) (s : State) : Phase → List Trip → Prop where
  | gaveUp (hCancel : k.cancelRequested = true) : CallStep cfg c k s (.finished .cancelled) s.trips
  | fixed (hPhase : k.phase = .starting) (token : Text) (hSource : cfg.source = .fixed token) :
      CallStep cfg c k s (.finished (k.call.result c token)) s.trips
  | queued (hPhase : k.phase = .starting) (key : RefreshKey) (hSource : cfg.source = .refreshable key) :
      CallStep cfg c k s .queued s.trips
  /-- The freshness of the stored token can not be told. -/
  | unknown (hPhase : k.phase = .starting ∨ k.phase = .queued) (hCall : k.call ≠ .refresh)
      (hFresh : s.held.isFresh? s.clock cfg.margin = none) :
      CallStep cfg c k s (.finished (.failed .outOfRange)) s.trips
  | reused (hPhase : k.phase = .starting ∨ k.phase = .queued) (token : Text) (expiry : Instant)
      (hCall : k.call ≠ .refresh) (hHeld : s.held = ⟨some token, some expiry⟩)
      (hFresh : s.clock.micros < expiry.micros - cfg.margin.micros) :
      CallStep cfg c k s (.finished (k.call.result c token)) s.trips
  | joined (t : TripId) (hPhase : k.phase = .starting ∨ k.phase = .queued)
      (hFree : s.lock.holder = none) (hPending : s.pending = some t) (hOpen : s.isFinished t = false) :
      CallStep cfg c k s (.waiting t) s.trips
  | began (hPhase : k.phase = .starting ∨ k.phase = .queued) (hFree : s.lock.holder = none)
      (hPending : ∀ t, s.pending = some t → s.isFinished t = true) :
      CallStep cfg c k s (.waiting s.trips.length) (s.trips ++ [.starting])
  | received (o : Outcome) (hPhase : k.phase = .delivered o) (hCancel : k.cancelRequested = false) :
      CallStep cfg c k s (.finished (resultOf c k.call o)) s.trips

/-- The tasks to do and the places in the queue for the lock play no part in it. -/
theorem CallStep.of_same (h : CallStep cfg c k s' p trips) (hStore : SameStore s s')
    (hHolder : s'.lock.holder = s.lock.holder) (hPending : s'.pending = s.pending)
    (hTrips : s'.trips = s.trips) : CallStep cfg c k s p trips := by
  have hFinished (t : TripId) : s'.isFinished t = s.isFinished t := by
    rw [isFinished, hTrips]
    rfl
  cases h with
  | gaveUp hCancel => exact hTrips ▸ .gaveUp hCancel
  | fixed hPhase token hSource => exact hTrips ▸ .fixed hPhase token hSource
  | queued hPhase key hSource => exact hTrips ▸ .queued hPhase key hSource
  | unknown hPhase hCall hFresh =>
      rw [hTrips]
      exact .unknown hPhase hCall (hStore.held ▸ hStore.clock ▸ hFresh)
  | reused hPhase token expiry hCall hHeld hFresh =>
      rw [hTrips]
      exact .reused hPhase token expiry hCall (hStore.held ▸ hHeld) (hStore.clock ▸ hFresh)
  | joined t hPhase hFree hJoin hOpen =>
      rw [hTrips]
      exact .joined t hPhase (hHolder ▸ hFree) (hPending ▸ hJoin) (hFinished t ▸ hOpen)
  | began hPhase hFree hJoin =>
      rw [hTrips]
      exact .began hPhase (hHolder ▸ hFree) fun t ht => hFinished t ▸ hJoin t (hPending ▸ ht)
  | received o hPhase hCancel => exact hTrips ▸ .received o hPhase hCancel

/-- The step of a call leads from one state to the other. -/
def Steps (cfg : Config) (c : CallId) (k : Caller) (s s' : State) : Prop :=
  ∃ p, s'.calls = (s.setPhase c p).calls ∧ CallStep cfg c k s p s'.trips

/-- A stored token counts as fresh only if it is there and expires later than the margin from now. -/
theorem held_of_storedIsFresh {call : Call} (h : s.storedIsFresh? cfg call = some true) :
    call ≠ .refresh ∧ ∃ token expiry, s.held = ⟨some token, some expiry⟩ ∧
      s.clock.micros < expiry.micros - cfg.margin.micros := by
  unfold storedIsFresh? at h
  split at h
  · contradiction
  · contradiction
  · next hCall _ =>
      refine ⟨hCall, ?_⟩
      unfold HeldToken.isFresh? at h
      split at h
      · next token expiry hToken hExpiry =>
          obtain ⟨latest, hLatest, hLess⟩ := Option.map_eq_some_iff.mp h
          have hMicros := Instant.ofMicros?_eq_some.mp hLatest
          refine ⟨token, expiry, ?_, ?_⟩
          · rw [← hToken, ← hExpiry]
          · rw [← hMicros]
            exact of_decide_eq_true hLess
      · contradiction

theorem unknown_of_storedIsFresh {call : Call} (h : s.storedIsFresh? cfg call = none) :
    call ≠ .refresh ∧ s.held.isFresh? s.clock cfg.margin = none := by
  unfold storedIsFresh? at h
  split at h
  · contradiction
  · contradiction
  · next hCall _ => exact ⟨hCall, h⟩

/-- What a call does that has just been given the lock. -/
theorem steps_enter (c : CallId) (hPhase : k.phase = .starting ∨ k.phase = .queued)
    (hFree : s.lock.holder = none) : Steps cfg c k s (s.enter cfg c k.call) := by
  generalize hTaken : ({ s with lock := s.lock.take c }.observe [.acquired c]).dropFinished = taken
  have hSame : taken.calls = s.calls ∧ taken.trips = s.trips ∧ taken.held = s.held ∧
      taken.clock = s.clock := by
    rw [← hTaken, dropFinished_eq]
    exact ⟨rfl, rfl, rfl, rfl⟩
  obtain ⟨hCalls, hTrips, hHeld, hClock⟩ := hSame
  have hJoin : taken.pending = s.pending.filter fun t => !s.isFinished t := by
    rw [← hTaken, dropFinished_eq]
    rfl
  have hSet (p : Phase) : (taken.setPhase c p).calls = (s.setPhase c p).calls := by
    simp only [setPhase, hCalls]
  unfold enter
  rw [hTaken]
  dsimp only
  split
  · next hFresh =>
      refine ⟨_, hSet _, ?_⟩
      change CallStep cfg c k s _ taken.trips
      obtain ⟨hRefresh, hUnknown⟩ := unknown_of_storedIsFresh hFresh
      rw [hTrips]
      exact .unknown hPhase hRefresh (hHeld ▸ hClock ▸ hUnknown)
  · next hFresh =>
      obtain ⟨hRefresh, token, expiry, hToken, hLess⟩ := held_of_storedIsFresh hFresh
      refine ⟨_, hSet _, ?_⟩
      change CallStep cfg c k s _ taken.trips
      rw [hTrips, hToken]
      exact .reused hPhase token expiry hRefresh (hHeld ▸ hToken) (hClock ▸ hLess)
  · unfold awaitTrip
    split
    · next t hPending =>
        rw [hJoin, Option.filter_eq_some_iff] at hPending
        refine ⟨_, hSet _, ?_⟩
        change CallStep cfg c k s _ taken.trips
        rw [hTrips]
        exact .joined t hPhase hFree hPending.1 (by simpa using hPending.2)
    · next hPending =>
        rw [hJoin, Option.filter_eq_none_iff] at hPending
        refine ⟨_, hSet _, ?_⟩
        change CallStep cfg c k s (.waiting taken.trips.length) (taken.trips ++ [.starting])
        rw [hTrips]
        exact .began hPhase hFree fun t ht => by simpa using hPending t ht

theorem steps_startCall (c : CallId) (hPhase : k.phase = .starting) :
    Steps cfg c k s (s.startCall cfg c k) := by
  unfold startCall
  split
  · next hCancel => exact ⟨_, rfl, .gaveUp hCancel⟩
  · split
    · next token hSource => exact ⟨_, rfl, .fixed hPhase token hSource⟩
    · next key hSource =>
        split
        · next hOpen => exact steps_enter c (.inl hPhase) (Lock.isOpen_iff.mp hOpen).1
        · exact ⟨_, rfl, .queued hPhase key hSource⟩

theorem steps_resumeQueued (h : Coherent cfg none (.call c :: s.ready) s) (hPhase : k.phase = .queued)
    (hCall : s.calls[c]? = some k) : Steps cfg c k s (s.resumeQueued cfg c k) := by
  unfold resumeQueued
  dsimp only
  split
  · next hCancel => split <;> exact ⟨_, rfl, .gaveUp hCancel⟩
  · next hCancel =>
      obtain ⟨_, hFree⟩ := h.free_of_resumed hCall hPhase (by simpa using hCancel)
      have hSteps : Steps cfg c k { s with lock := s.lock.leave c }
          ({ s with lock := s.lock.leave c }.enter cfg c k.call) := steps_enter c (.inr hPhase) hFree
      obtain ⟨p, hCalls, hStep⟩ := hSteps
      exact ⟨p, hCalls, hStep.of_same ⟨rfl, rfl, rfl⟩ rfl rfl rfl⟩

/-- The step of a call whose turn it is. -/
theorem steps_stepCall (h : Coherent cfg none (.call c :: s.ready) s) :
    ∃ k, s.calls[c]? = some k ∧ Steps cfg c k s (s.stepCall cfg c) := by
  obtain ⟨k, hCall, _⟩ := h.serve
  have hPlaced := h.placed c k hCall (by simp)
  refine ⟨k, hCall, ?_⟩
  unfold stepCall
  rw [hCall]
  dsimp only
  cases hPhase : k.phase with
  | starting => exact steps_startCall c hPhase
  | queued => exact steps_resumeQueued h hPhase hCall
  | waiting t =>
      rw [Placed, hPhase] at hPlaced
      cases hCancel : k.cancelRequested with
      | true => exact ⟨_, rfl, .gaveUp hCancel⟩
      | false => simp [hCancel] at hPlaced
  | delivered o =>
      refine ⟨_, rfl, ?_⟩
      cases hCancel : k.cancelRequested with
      | true => exact .gaveUp hCancel
      | false => exact .received o hPhase hCancel
  | finished r =>
      rw [Placed, hPhase] at hPlaced
      simp at hPlaced

/-- What a turn does to the calls. -/
inductive CallsEffect (cfg : Config) (s s' : State) : Prop where
  | quiet (hCalls : s'.calls = s.calls) (hLength : s'.trips.length = s.trips.length)
  | stepped (c : CallId) (k : Caller) (rest : List Task) (p : Phase) (trips : List Trip)
      (hTask : s.ready = .call c :: rest) (hCall : s.calls[c]? = some k)
      (hCalls : s'.calls = (s.setPhase c p).calls) (hTrips : s'.trips = trips)
      (hStore : SameStore s s') (hStep : CallStep cfg c k s p trips)
  | delivered (t : TripId) (c : CallId) (call : Call) (rest : List Task) (o : Outcome)
      (hTask : s.ready = .deliver t c :: rest) (hCall : s.calls[c]? = some ⟨call, .waiting t, false⟩)
      (hTrip : s.trips[t]? = some (.finished o))
      (hCalls : s'.calls = (s.setPhase c (.delivered o)).calls) (hTrips : s'.trips = s.trips)

/-- A step of a round trip begins no other one. -/
theorem length_stepTrip (cfg : Config) (t : TripId) (s : State) :
    (s.stepTrip cfg t).trips.length = s.trips.length := by
  unfold stepTrip
  split
  · unfold startTrip
    split
    · exact List.length_set
    · split <;> exact List.length_set
  · exact List.length_set
  · rfl

/-- What one turn can do to the calls. -/
theorem calls_effect (h : Coherent cfg none s.ready s) : CallsEffect cfg s (s.turn cfg) := by
  unfold turn
  split
  · exact .quiet rfl rfl
  · next task rest hReady =>
      have hTask : Coherent cfg none (task :: rest) { s with ready := rest } :=
        (hReady ▸ h).of_same rfl rfl rfl fun _ ht => ht
      cases task with
      | call c =>
          obtain ⟨k, hCall, p, hCalls, hStep⟩ := steps_stepCall (s := { s with ready := rest }) hTask
          obtain ⟨hStore, _⟩ := stepCall_effect cfg c { s with ready := rest }
          exact .stepped c k rest p _ hReady hCall hCalls rfl
            ⟨hStore.clock, hStore.replies, hStore.held⟩ (hStep.of_same ⟨rfl, rfl, rfl⟩ rfl rfl rfl)
      | trip t =>
          exact .quiet (calls_stepTrip cfg t { s with ready := rest })
            (length_stepTrip cfg t { s with ready := rest })
      | retire t =>
          rw [perform, retire]
          split <;> exact .quiet rfl rfl
      | deliver t c =>
          rw [perform, deliver]
          split
          · next call u o hCall hTrip =>
              split
              · next hSame =>
                  subst hSame
                  exact .delivered u c call rest o hReady hCall hTrip rfl rfl
              · exact .quiet rfl rfl
          · exact .quiet rfl rfl

end Bearer.Cache.State
