import Bearer.Proofs.Cache.Turn

/-! A round trip sends its request in its first step and never again, and nothing else sends one. So there are never
more requests than round trips that have taken their first step. -/

namespace Bearer.Cache

/-- Whether a round trip has taken its first step. -/
def Trip.isStarted : Trip → Bool
  | starting => false
  | sent | released | finished _ => true

namespace State

variable {cfg : Config} {s s' : State} {c : CallId} {t : TripId}

/-- The round trips that have taken their first step. -/
def started (s : State) : Nat := s.trips.countP (·.isStarted)

theorem started_congr (hTrips : s'.trips = s.trips) : s'.started = s.started := by
  rw [started, hTrips, started]

theorem started_setTrip {old : Trip} (hOld : s.trips[t]? = some old) (new : Trip) :
    (s.setTrip t new).started + (if old.isStarted then 1 else 0) =
      s.started + (if new.isStarted then 1 else 0) := by
  obtain ⟨hBound, rfl⟩ := List.getElem?_eq_some_iff.mp hOld
  have hPos : s.trips[t].isStarted = true → 0 < s.trips.countP (·.isStarted) := fun hStarted =>
    List.countP_pos_iff.mpr ⟨_, List.getElem_mem hBound, hStarted⟩
  rw [started, started, setTrip, List.countP_set hBound]
  split
  · next hStarted =>
      have := hPos hStarted
      omega
  · omega

theorem requests_finish (c : CallId) (r : Result) (s : State) : (s.finish c r).requests = s.requests :=
  requests_observe_eq (by simp) (s.setPhase c (.finished r))

theorem requests_finishHolder (c : CallId) (r : Result) (s : State) :
    (s.finishHolder c r).requests = s.requests := requests_finish c r (s.withLock s.lock.release)

theorem requests_hand (c : CallId) (o : Outcome) (s : State) : (s.hand c o).requests = s.requests := rfl

theorem requests_awaitTrip (c : CallId) (s : State) : (s.awaitTrip c).requests = s.requests := by
  unfold awaitTrip
  split <;> rfl

theorem requests_enter (cfg : Config) (c : CallId) (call : Call) (s : State) :
    (s.enter cfg c call).requests = s.requests := by
  have hTaken : ({ s with lock := s.lock.take c }.observe [.acquired c]).dropFinished.requests =
      s.requests := by
    rw [dropFinished_eq]
    exact requests_observe_eq (by simp) { s with lock := s.lock.take c }
  unfold enter
  dsimp only
  split
  · rw [requests_finishHolder, hTaken]
  · rw [requests_finishHolder, requests_hand, requests_observe_eq (by simp), hTaken]
  · rw [requests_awaitTrip, hTaken]

theorem requests_stepCall (cfg : Config) (c : CallId) (s : State) :
    (s.stepCall cfg c).requests = s.requests := by
  unfold stepCall
  split
  · rfl
  · next k _ =>
      split
      · unfold startCall
        split
        · exact requests_finish c _ s
        · split
          · exact requests_finish c _ s
          · split
            · exact requests_enter cfg c k.call s
            · rfl
      · unfold resumeQueued
        split
        · rw [requests_finish]
          split <;> rfl
        · exact requests_enter cfg c k.call { s with lock := s.lock.leave c }
      · split
        · exact requests_finishHolder c _ s
        · rfl
      · exact requests_finishHolder c _ s
      · rfl

theorem trace_cancel (c : CallId) (s : State) : (s.cancel c).trace = s.trace := by
  unfold cancel
  split
  · rfl
  · dsimp only
    split
    · rfl
    · split <;> rfl
    · split <;> rfl
    · rfl
    · rfl

/-- There are no more requests than round trips that have taken their first step. -/
def Economical (s : State) : Prop := s.requests.length ≤ s.started

/-- As `Economical`, with one request more if a round trip is in its first step. -/
def Allows (s : State) (t : TripId) : Prop := ∃ trip, s.trips[t]? = some trip ∧
  s.requests.length + (if trip.isStarted then 1 else 0) ≤ s.started + 1

namespace Allows

theorem of_same (h : s.Allows t) (hRequests : s'.requests = s.requests) (hTrips : s'.trips = s.trips) :
    s'.Allows t := by
  obtain ⟨trip, hTrip, hRoom⟩ := h
  refine ⟨trip, hTrips ▸ hTrip, ?_⟩
  rw [hRequests, started_congr hTrips]
  exact hRoom

theorem setTrip (h : s.Allows t) {new : Trip} (hNew : new.isStarted = true) :
    Economical (s.setTrip t new) := by
  obtain ⟨trip, hTrip, hRoom⟩ := h
  have hSet := started_setTrip hTrip new
  have hSame : (s.setTrip t new).requests = s.requests := rfl
  rw [Economical, hSame]
  rw [hNew, if_pos rfl] at hSet
  omega

theorem finishTrip (h : s.Allows t) (o : Outcome) : Economical (s.finishTrip t o) := by
  have hSet : Economical (s.setTrip t (.finished o)) := h.setTrip rfl
  have hSame : (s.finishTrip t o).requests = (s.setTrip t (.finished o)).requests :=
    requests_observe_eq (by simp) (s.setTrip t (.finished o))
  rw [Economical, hSame]
  exact hSet

theorem answerTrip (h : s.Allows t) (cfg : Config) (key : RefreshKey) :
    Economical (s.answerTrip cfg key t) := by
  rw [answerTrip_eq]
  refine finishTrip (h.of_same ?_ ?_) _
  · exact requests_observe_eq (by simp) _
  · rfl

end Allows

namespace Economical

theorem allows (h : s.Economical) {trip : Trip} (hTrip : s.trips[t]? = some trip) : s.Allows t := by
  refine ⟨trip, hTrip, ?_⟩
  rw [Economical] at h
  split <;> omega

theorem of_same (h : s.Economical) (hRequests : s'.requests = s.requests) (hStarted : s.started ≤ s'.started) :
    s'.Economical := by
  rw [Economical, hRequests]
  exact Nat.le_trans h hStarted

theorem startTrip (h : s.Economical) (key : RefreshKey) (hTrip : s.trips[t]? = some .starting) :
    Economical (s.startTrip cfg key t) := by
  have hNoted : (s.observe [.note (.started key.clientId)]).Economical :=
    h.of_same (requests_observe_eq (by simp) s) (Nat.le_refl _)
  unfold State.startTrip
  split
  · exact (hNoted.allows hTrip).finishTrip _
  · next request _ =>
      have hSent : ((s.observe [.note (.started key.clientId)]).observe [.request request]).Allows t := by
        refine ⟨.starting, hTrip, ?_⟩
        rw [requests_observe, List.length_append]
        exact Nat.succ_le_succ hNoted
      split
      · exact hSent.setTrip rfl
      · exact hSent.answerTrip cfg key

theorem turn (h : s.Economical) : (s.turn cfg).Economical := by
  unfold State.turn
  split
  · exact h
  · next task rest _ =>
      have hRest : Economical { s with ready := rest } := h
      cases task with
      | call c =>
          refine hRest.of_same (requests_stepCall cfg c _) ?_
          cases (stepCall_effect cfg c { s with ready := rest }).2 with
          | quiet hTrips => exact Nat.le_of_eq (started_congr hTrips).symm
          | begun _ hTrips =>
              rw [perform, started, started, hTrips, List.countP_append]
              exact Nat.le_add_right _ _
      | trip t =>
          rw [perform, stepTrip]
          split
          · next key _ hTrip => exact hRest.startTrip key hTrip
          · next key _ hTrip => exact (hRest.allows hTrip).answerTrip cfg key
          · exact hRest
      | retire t =>
          rw [perform, retire]
          split <;> exact h
      | deliver t c =>
          rw [perform, deliver]
          split
          · split <;> exact h
          · exact h

theorem act (h : s.Economical) (a : Action) : (s.act a).Economical := by
  cases a with
  | call call => exact h
  | cancel d =>
      exact h.of_same (congrArg (List.filterMap _) (trace_cancel d s))
        (Nat.le_of_eq (started_congr (cancel_frame d s).2).symm)
  | advance micros =>
      obtain ⟨clock, hAct⟩ := act_advance s micros
      rw [hAct]
      exact h
  | supply replies => exact h
  | release =>
      rcases release_cases s with ⟨hSame, _⟩ | ⟨t, hSent, hRelease⟩
      · rw [State.act, hSame]
        exact h
      · rw [State.act, hRelease]
        exact (h.allows hSent).setTrip rfl
  | rest => exact h

theorem play (h : s.Economical) (moves : List Move) : (s.play cfg moves).Economical := by
  refine play_invariant h (fun s m h => ?_) moves
  cases m with
  | act a => exact h.act a
  | turn => exact h.turn

end Economical

/-- There are never more requests than round trips. -/
theorem requests_le_trips (cfg : Config) (clock : Instant) (held : HeldToken) (replies : List Reply)
    (moves : List Move) :
    let s := (start clock held replies).play cfg moves
    s.requests.length ≤ s.trips.length := by
  intro s
  have h : (start clock held replies).Economical := Nat.le_refl 0
  have hPlayed : s.Economical := h.play moves
  exact Nat.le_trans hPlayed List.countP_le_length

end State

end Bearer.Cache
