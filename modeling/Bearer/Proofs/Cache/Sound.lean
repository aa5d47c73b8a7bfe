import Bearer.Proofs.Cache.Tenure

/-! What holds of the tasks, the lock, the calls and the round trips after every schedule. -/

namespace Bearer.Cache.State

variable {cfg : Config} {s s' : State} {c d : CallId} {t u : TripId} {k : Caller} {p : Phase}

theorem lock_awaitTrip (c : CallId) (s : State) : (s.awaitTrip c).lock = s.lock := by
  unfold awaitTrip
  split <;> rfl

theorem passedOn_enter (cfg : Config) (c : CallId) (call : Call) (s : State) :
    (s.enter cfg c call).lock.PassedOn := by
  unfold enter
  dsimp only
  split
  · exact .wakeFirst _
  · exact .wakeFirst _
  · rw [lock_awaitTrip, dropFinished_eq]
    exact .of_held rfl

theorem passedOn_startCall (h : s.lock.PassedOn) (c : CallId) (k : Caller) :
    (s.startCall cfg c k).lock.PassedOn := by
  unfold startCall
  split
  · exact h
  · split
    · exact h
    · split
      · exact passedOn_enter cfg c k.call s
      · next hBusy => exact h.join (by simpa using hBusy) c

theorem passedOn_resumeQueued (c : CallId) (k : Caller) (s : State) :
    (s.resumeQueued cfg c k).lock.PassedOn := by
  unfold resumeQueued
  dsimp only
  split
  · split
    · exact .wakeFirst _
    · next hHeld =>
        obtain ⟨d, hHolder⟩ : ∃ d, (s.lock.leave c).holder = some d := by
          simpa only [Option.isNone_iff_eq_none, ← ne_eq, Option.ne_none_iff_exists'] using hHeld
        exact .of_held hHolder
  · exact passedOn_enter cfg c k.call { s with lock := s.lock.leave c }

theorem passedOn_stepCall (h : s.lock.PassedOn) (c : CallId) : (s.stepCall cfg c).lock.PassedOn := by
  unfold stepCall
  split
  · exact h
  · next k _ =>
      split
      · exact passedOn_startCall h c k
      · exact passedOn_resumeQueued c k s
      · split
        · exact .wakeFirst _
        · exact h
      · exact .wakeFirst _
      · exact h

theorem lock_stepTrip (cfg : Config) (t : TripId) (s : State) : (s.stepTrip cfg t).lock = s.lock := by
  unfold stepTrip
  split
  · unfold startTrip
    split
    · rfl
    · split <;> rfl
  · rfl
  · rfl

theorem passedOn_turn (h : s.lock.PassedOn) : (s.turn cfg).lock.PassedOn := by
  unfold turn
  split
  · exact h
  · next task rest _ =>
      cases task with
      | call c => exact passedOn_stepCall (s := { s with ready := rest }) h c
      | trip t =>
          rw [perform, lock_stepTrip]
          exact h
      | retire t =>
          rw [perform, retire]
          split <;> exact h
      | deliver t c =>
          rw [perform, deliver]
          split
          · split <;> exact h
          · exact h

theorem passedOn_cancel (h : s.lock.PassedOn) (c : CallId) : (s.cancel c).lock.PassedOn := by
  unfold cancel
  split
  · exact h
  · dsimp only
    split
    · exact h
    · split
      · exact h.giveUp c
      · exact h
    · split <;> exact h
    · exact h
    · exact h

theorem passedOn_act (h : s.lock.PassedOn) (a : Action) : (s.act a).lock.PassedOn := by
  cases a with
  | call call => exact h
  | cancel c => exact passedOn_cancel h c
  | advance micros =>
      obtain ⟨clock, hAct⟩ := act_advance s micros
      rw [hAct]
      exact h
  | supply replies => exact h
  | release =>
      rcases release_cases s with ⟨hSame, _⟩ | ⟨t, _, hRelease⟩
      · rw [act, hSame]
        exact h
      · rw [act, hRelease]
        exact h
  | rest => exact h

/-- No round trip has been begun, and every call ends in its first step. -/
structure Outright (s : State) : Prop where
  trips : s.trips = []
  phase : ∀ c p, s.phase? c = some p → p = .starting ∨ ∃ r, p = .finished r

namespace Outright

theorem finish (h : Outright s) (hCall : s.calls[c]? = some k) (r : Result) : Outright (s.finish c r) where
  trips := h.trips
  phase d p hPhase := by
    have hCalls : (s.finish c r).calls = (s.setPhase c (.finished r)).calls := rfl
    by_cases hd : d = c
    · subst hd
      rw [phase?_setPhase_self hCalls hCall, Option.some.injEq] at hPhase
      exact .inr ⟨r, hPhase.symm⟩
    · exact h.phase d p (phase?_setPhase_ne hCalls hd ▸ hPhase)

theorem stepCall {token : Text} (h : Outright s) (hSource : cfg.source = .fixed token) (c : CallId) :
    Outright (s.stepCall cfg c) := by
  unfold State.stepCall
  split
  · exact h
  · next k hCall =>
      rcases h.phase c k.phase (phase?_eq_some.mpr ⟨k, hCall, rfl⟩) with hStarting | ⟨r, hFinished⟩
      · rw [hStarting]
        dsimp only
        unfold State.startCall
        split
        · exact h.finish hCall _
        · have hHanded (o : Outcome) : Outright (s.hand c o) := ⟨h.trips, h.phase⟩
          rw [hSource]
          exact (hHanded _).finish hCall _
      · rw [hFinished]
        exact h

theorem turn {token : Text} (h : Outright s) (hSource : cfg.source = .fixed token) :
    Outright (s.turn cfg) := by
  unfold State.turn
  split
  · exact h
  · next task rest _ =>
      have hRest : Outright { s with ready := rest } := ⟨h.trips, h.phase⟩
      cases task with
      | call c => exact hRest.stepCall hSource c
      | trip t =>
          rw [perform, stepTrip, hSource]
          exact hRest
      | retire t =>
          rw [perform, State.retire]
          split
          · exact ⟨h.trips, h.phase⟩
          · exact hRest
      | deliver t c =>
          rw [perform, State.deliver]
          split
          · next call u o hCall _ =>
              rcases h.phase c _ (phase?_eq_some.mpr ⟨_, hCall, rfl⟩) with hPhase | ⟨r, hPhase⟩
              · cases hPhase
              · cases hPhase
          · exact hRest

theorem act (h : Outright s) (a : Action) : Outright (s.act a) where
  trips := by
    obtain ⟨_, hTrips | ⟨t, hSent, _⟩⟩ := act_effect s a
    · exact hTrips.trans h.trips
    · rw [h.trips] at hSent
      contradiction
  phase c p hPhase := by
    rcases phase?_act s a c with hSame | ⟨_, hStarting⟩
    · exact h.phase c p (hSame ▸ hPhase)
    · exact .inl (Option.some.inj (hPhase.symm.trans hStarting))

end Outright

/-- Every round trip whose request is answered at once has yet to be started or has finished. -/
def Prompt (cfg : Config) (s : State) : Prop :=
  ∀ (t : TripId) (trip : Trip), s.trips[t]? = some trip → cfg.gated.waits t = false →
    trip = .starting ∨ trip.isFinished = true

namespace Prompt

theorem set (h : Prompt cfg s) (hTrips : s'.trips = s.trips ∨ (∃ t o, s'.trips = s.trips.set t (.finished o)) ∨
    ∃ t, cfg.gated.waits t = true ∧ s'.trips = s.trips.set t .sent) : Prompt cfg s' := by
  intro u trip hTrip hAtOnce
  rcases hTrips with hSame | ⟨t, o, hSet⟩ | ⟨t, hWaits, hSet⟩
  · exact h u trip (hSame ▸ hTrip) hAtOnce
  · rw [hSet] at hTrip
    by_cases hut : t = u
    · subst hut
      rw [List.getElem?_set_self (by simpa using (List.getElem?_eq_some_iff.mp hTrip).1)] at hTrip
      cases hTrip
      exact .inr rfl
    · rw [List.getElem?_set_ne hut] at hTrip
      exact h u trip hTrip hAtOnce
  · have hut : t ≠ u := fun hSame => by simp [← hSame, hWaits] at hAtOnce
    rw [hSet, List.getElem?_set_ne hut] at hTrip
    exact h u trip hTrip hAtOnce

theorem stepTrip (h : Prompt cfg s) (t : TripId) : Prompt cfg (s.stepTrip cfg t) := by
  refine h.set ?_
  unfold State.stepTrip
  split
  · unfold State.startTrip
    split
    · exact .inr (.inl ⟨t, _, rfl⟩)
    · split
      · next hWaits => exact .inr (.inr ⟨t, hWaits, rfl⟩)
      · exact .inr (.inl ⟨t, _, rfl⟩)
  · exact .inr (.inl ⟨t, _, rfl⟩)
  · exact .inl rfl

theorem stepCall (h : Prompt cfg s) (c : CallId) : Prompt cfg (s.stepCall cfg c) := by
  cases (stepCall_effect cfg c s).2 with
  | quiet hTrips => exact h.set (.inl hTrips)
  | begun _ hTrips =>
      intro t trip hTrip hAtOnce
      rw [hTrips, List.getElem?_append] at hTrip
      split at hTrip
      · exact h t trip hTrip hAtOnce
      · exact .inl (List.mem_singleton.mp (List.mem_of_getElem? hTrip))

theorem turn (h : Prompt cfg s) : Prompt cfg (s.turn cfg) := by
  unfold State.turn
  split
  · exact h
  · next task rest _ =>
      have hRest : Prompt cfg { s with ready := rest } := h
      cases task with
      | call c => exact hRest.stepCall c
      | trip t => exact hRest.stepTrip t
      | retire t =>
          rw [perform, State.retire]
          split <;> exact h
      | deliver t c =>
          rw [perform, State.deliver]
          split
          · split <;> exact h
          · exact h

/-- An answer is released only for a request that waited for it. -/
theorem act (h : Prompt cfg s) (a : Action) : Prompt cfg (s.act a) := by
  obtain ⟨_, hTrips | ⟨t, hSent, hTrips⟩⟩ := act_effect s a
  · exact h.set (.inl hTrips)
  · intro u trip hTrip hAtOnce
    by_cases hut : t = u
    · subst hut
      rcases h t .sent hSent hAtOnce with hStarting | hFinished
      · contradiction
      · contradiction
    · rw [hTrips, List.getElem?_set_ne hut] at hTrip
      exact h u trip hTrip hAtOnce

end Prompt

/-- What holds of every state that a schedule reaches. -/
structure Sound (cfg : Config) (s : State) : Prop where
  coherent : Coherent cfg none s.ready s
  flight : SingleFlight s
  tenure : Tenure s
  passedOn : s.lock.PassedOn
  outright : ∀ token, cfg.source = .fixed token → s.Outright
  prompt : s.Prompt cfg

namespace Sound

theorem start (clock : Instant) (held : HeldToken) (replies : List Reply) :
    Sound cfg (State.start clock held replies) where
  coherent := .start clock held replies
  flight := .start clock held replies
  tenure := .start clock held replies
  passedOn := .start
  outright := fun _ _ => ⟨rfl, by simp [State.start, phase?]⟩
  prompt := by simp [Prompt, State.start]

theorem act (h : Sound cfg s) (a : Action) : Sound cfg (s.act a) where
  coherent := h.coherent.act a
  flight := h.flight.act a
  tenure := h.tenure.act a
  passedOn := passedOn_act h.passedOn a
  outright := fun token hSource => (h.outright token hSource).act a
  prompt := h.prompt.act a

theorem turn (h : Sound cfg s) : Sound cfg (s.turn cfg) where
  coherent := h.coherent.turn
  flight := h.flight.turn
  tenure := h.tenure.turn h.coherent h.flight
  passedOn := passedOn_turn h.passedOn
  outright := fun token hSource => (h.outright token hSource).turn hSource
  prompt := h.prompt.turn

theorem move (h : Sound cfg s) (m : Move) : Sound cfg (s.move cfg m) := by
  cases m with
  | act a => exact h.act a
  | turn => exact h.turn

theorem play (h : Sound cfg s) (moves : List Move) : Sound cfg (s.play cfg moves) :=
  play_invariant h (fun _ m h => h.move m) moves

theorem step (h : Sound cfg s) (actions : List Action) : Sound cfg (s.step cfg actions) := by
  obtain ⟨count, hStep⟩ := step_eq_play cfg s actions
  rw [hStep]
  exact h.play _

theorem run (h : Sound cfg s) (steps : List (List Action)) : Sound cfg (s.run cfg steps) := by
  obtain ⟨moves, hMoves⟩ := run_eq_play cfg s steps
  rw [hMoves]
  exact h.play moves

/-- Only one call holds the lock. -/
theorem eq_of_holds (h : Sound cfg s) {q : Phase} (hc : s.phase? c = some p) (hd : s.phase? d = some q)
    (hp : p.holds = true) (hq : q.holds = true) : c = d :=
  Option.some.inj ((h.coherent.holder_of_holds hc hp).symm.trans (h.coherent.holder_of_holds hd hq))

/-- A round trip is begun only to exchange a key. -/
theorem refreshable_of_trip (h : Sound cfg s) {trip : Trip} (hTrip : s.trips[t]? = some trip) :
    ∃ key, cfg.source = .refreshable key := by
  cases hSource : cfg.source with
  | refreshable key => exact ⟨key, rfl⟩
  | fixed token =>
      rw [(h.outright token hSource).trips] at hTrip
      contradiction

/-- Once nothing is left to do, a round trip under way has its request sent and not answered. -/
theorem sent_of_underWay (h : Sound cfg s) (hReady : s.ready = []) (ht : s.UnderWay t) :
    s.trips[t]? = some .sent := by
  obtain ⟨trip, hTrip, hOpen⟩ := ht
  obtain ⟨key, hSource⟩ := h.refreshable_of_trip hTrip
  have hGoing := h.coherent.going key hSource t trip hTrip
  rw [hReady] at hGoing
  cases trip with
  | sent => exact hTrip
  | starting => exact absurd (hGoing (.inl rfl)) (by simp)
  | released => exact absurd (hGoing (.inr rfl)) (by simp)
  | finished o => contradiction

/-- Once nothing is left to do, a call that has not ended waits: for the lock, or for a round trip. -/
theorem waits_of_open (h : Sound cfg s) (hReady : s.ready = []) (hCall : s.calls[c]? = some k)
    (hOpen : ∀ r, k.phase ≠ .finished r) : k.cancelRequested = false ∧
      (k.phase = .queued ∧ (c, .waiting) ∈ s.lock.waiters ∨
        ∃ t, k.phase = .waiting t ∧ s.trips[t]? = some .sent) := by
  have hPlaced := h.coherent.placed c k hCall (by simp)
  rw [Placed, hReady] at hPlaced
  cases hPhase : k.phase with
  | starting => simp [hPhase] at hPlaced
  | queued =>
      simp only [hPhase] at hPlaced
      obtain ⟨w, hw⟩ := hPlaced
      obtain ⟨⟨k', hCall', _, hKept, _⟩, hDue⟩ := (h.coherent.waiter c w hw).2
      rw [Option.some.inj (hCall'.symm.trans hCall)] at hKept
      rw [hReady] at hDue
      cases w with
      | waiting => exact ⟨hKept rfl, .inl ⟨rfl, hw⟩⟩
      | woken => simp at hDue
      | cancelled => simp at hDue
  | waiting t =>
      simp only [hPhase] at hPlaced
      obtain ⟨_, hDue, hLength, hDelivery⟩ := hPlaced
      cases hCancel : k.cancelRequested with
      | true => simp [hCancel] at hDue
      | false =>
          refine ⟨rfl, .inr ⟨t, rfl, h.sent_of_underWay hReady ⟨_, List.getElem?_eq_getElem hLength, ?_⟩⟩⟩
          cases hFinished : s.trips[t].isFinished with
          | false => rfl
          | true =>
              have hDone : s.isFinished t = true := by
                rw [isFinished, List.getElem?_eq_getElem hLength]
                exact hFinished
              exact absurd (hDelivery hCancel hDone) (by simp)
  | delivered o => simp [hPhase] at hPlaced
  | finished r => exact absurd hPhase (hOpen r)

end Sound

end Bearer.Cache.State
