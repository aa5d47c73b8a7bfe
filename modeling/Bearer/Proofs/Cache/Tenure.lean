import Bearer.Proofs.Cache.Service
import Bearer.Proofs.Cache.SingleFlight

/-! A call that holds the lock waits for the only round trip under way, and once the outcome of that one has reached
it none is under way. -/

namespace Bearer.Cache.State

variable {cfg : Config} {s s' : State} {c d : CallId} {t u : TripId} {k : Caller} {p : Phase}

theorem phase?_eq_some : s.phase? c = some p ↔ ∃ k, s.calls[c]? = some k ∧ k.phase = p :=
  Option.map_eq_some_iff

theorem phase?_congr (hCalls : s'.calls = s.calls) (c : CallId) : s'.phase? c = s.phase? c := by
  rw [phase?, phase?, hCalls]

theorem phase?_setPhase_self (hCalls : s'.calls = (s.setPhase c p).calls) (hCall : s.calls[c]? = some k) :
    s'.phase? c = some p := by
  rw [phase?, hCalls, calls_setPhase_self hCall]
  rfl

theorem phase?_setPhase_ne (hCalls : s'.calls = (s.setPhase c p).calls) (hd : d ≠ c) :
    s'.phase? d = s.phase? d := by
  rw [phase?, phase?, hCalls, calls_setPhase_ne hd]

/-- What comes from outside moves no call; a new call starts. -/
theorem phase?_act (s : State) (a : Action) (c : CallId) : (s.act a).phase? c = s.phase? c ∨
    s.phase? c = none ∧ (s.act a).phase? c = some .starting := by
  rw [phase?, phase?]
  rcases caller_act s a c with ⟨k, k', hOld, hNew, hSame⟩ | ⟨hOld, hNone | ⟨call, hNew⟩⟩
  · left
    rw [hOld, hNew]
    rcases hSame with rfl | rfl <;> rfl
  · exact .inl (by rw [hOld, hNone])
  · exact .inr (by rw [hOld, hNew]; exact ⟨rfl, rfl⟩)

/-- The call that waits for a round trip, or has its outcome, holds the lock. -/
theorem Coherent.holder_of_holds {tasks : List Task} (h : Coherent cfg none tasks s)
    (hPhase : s.phase? c = some p) (hHolds : p.holds = true) : s.lock.holder = some c := by
  obtain ⟨k, hCall, rfl⟩ := phase?_eq_some.mp hPhase
  have hPlaced := h.placed c k hCall (by simp)
  unfold Placed at hPlaced
  split at hPlaced
  · next hStarting => rw [hStarting] at hHolds; contradiction
  · next hQueued => rw [hQueued] at hHolds; contradiction
  · exact hPlaced.1
  · exact hPlaced.1
  · next hFinished => rw [hFinished] at hHolds; contradiction

theorem underWay_congr (hTrips : s'.trips = s.trips) : s'.UnderWay t ↔ s.UnderWay t := by
  rw [UnderWay, UnderWay, hTrips]

theorem underWay_act (a : Action) (h : (s.act a).UnderWay t) : s.UnderWay t := by
  obtain ⟨_, hTrips | ⟨u, hSent, hTrips⟩⟩ := act_effect s a
  · exact (underWay_congr hTrips).mp h
  · obtain ⟨trip, hTrip, hOpen⟩ := h
    rw [hTrips] at hTrip
    by_cases hut : u = t
    · exact hut ▸ ⟨.sent, hSent, rfl⟩
    · rw [List.getElem?_set_ne hut] at hTrip
      exact ⟨trip, hTrip, hOpen⟩

/-- A round trip that is under way after a move was so before unless the move began it. -/
theorem underWay_of_length {m : Move} (hLength : (s.move cfg m).trips.length = s.trips.length)
    (h : (s.move cfg m).UnderWay t) : s.UnderWay t := by
  cases trip_effect cfg s m t with
  | quiet hSame =>
      obtain ⟨trip, hTrip, hOpen⟩ := h
      exact ⟨trip, hSame ▸ hTrip, hOpen⟩
  | begun hOld hNew =>
      have hBound := (List.getElem?_eq_some_iff.mp hNew).1
      rw [hLength] at hBound
      exact absurd hOld (by simp [hBound])
  | gone_on hOld _ => exact hOld
  | ended o _ hNew _ => exact absurd hNew h.not_finished

/-- A round trip that is under way after one was begun is that one or an older one. -/
theorem underWay_began (hTrips : s'.trips = s.trips ++ [.starting]) (h : s'.UnderWay u) :
    s.UnderWay u ∨ u = s.trips.length := by
  obtain ⟨trip, hTrip, hOpen⟩ := h
  rw [hTrips] at hTrip
  by_cases hBound : u < s.trips.length
  · rw [List.getElem?_append_left hBound] at hTrip
    exact .inl ⟨trip, hTrip, hOpen⟩
  · have hLength := (List.getElem?_eq_some_iff.mp hTrip).1
    rw [List.length_append, List.length_singleton] at hLength
    exact .inr (Nat.le_antisymm (Nat.le_of_lt_succ hLength) (Nat.le_of_not_lt hBound))

theorem SingleFlight.eq_of_underWay (h : SingleFlight s) (ht : s.UnderWay t) : s.pending = some t := by
  obtain ⟨trip, hTrip, hOpen⟩ := ht
  exact h.pending_of_unfinished t trip hTrip hOpen

theorem UnderWay.isFinished_eq (h : s.UnderWay t) : s.isFinished t = false := by
  obtain ⟨trip, hTrip, hOpen⟩ := h
  rw [isFinished, hTrip]
  exact hOpen

/-- While a call holds the lock, only the round trip that it waits for is under way. -/
structure Tenure (s : State) : Prop where
  waiting : ∀ c t u, s.phase? c = some (.waiting t) → s.UnderWay u → u = t
  delivered : ∀ c o u, s.phase? c = some (.delivered o) → ¬s.UnderWay u

namespace Tenure

theorem start (clock : Instant) (held : HeldToken) (replies : List Reply) :
    Tenure (State.start clock held replies) where
  waiting := by simp [State.start, phase?]
  delivered := by simp [State.start, phase?]

/-- Only calls that go on to hold the lock, and the round trips under way, matter. -/
theorem of_same (h : Tenure s) (hPhase : ∀ c p, s'.phase? c = some p → p.holds = true →
      s.phase? c = some p) (hTrips : ∀ u, s'.UnderWay u → s.UnderWay u) : Tenure s' where
  waiting c t u hWaiting hOpen := h.waiting c t u (hPhase c _ hWaiting rfl) (hTrips u hOpen)
  delivered c o u hDelivered hOpen := h.delivered c o u (hPhase c _ hDelivered rfl) (hTrips u hOpen)

theorem act (h : Tenure s) (a : Action) : Tenure (s.act a) := by
  refine h.of_same (fun c p hPhase hHolds => ?_) fun u hOpen => underWay_act a hOpen
  rcases phase?_act s a c with hSame | ⟨_, hStarting⟩
  · exact hSame ▸ hPhase
  · rw [hPhase, Option.some.injEq] at hStarting
    subst hStarting
    contradiction

/-- A call that goes on to hold no lock takes nothing from the others. -/
theorem of_gone (h : Tenure s) (hCalls : s'.calls = (s.setPhase c p).calls) (hCall : s.calls[c]? = some k)
    (hHolds : p.holds = false) (hTrips : s'.trips = s.trips) : Tenure s' := by
  refine h.of_same (fun d q hPhase hHolds' => ?_) fun u => (underWay_congr hTrips).mp
  by_cases hd : d = c
  · subst hd
    rw [phase?_setPhase_self hCalls hCall, Option.some.injEq] at hPhase
    rw [← hPhase, hHolds] at hHolds'
    contradiction
  · exact phase?_setPhase_ne hCalls hd ▸ hPhase

/-- A call that is given a free lock is the only one to hold it. -/
theorem of_given (hCoherent : Coherent cfg none s.ready s) (hFree : s.lock.holder = none)
    (hCalls : s'.calls = (s.setPhase c (.waiting t)).calls) (hCall : s.calls[c]? = some k)
    (hOnly : ∀ u, s'.UnderWay u → u = t) : Tenure s' := by
  have hSelf := phase?_setPhase_self hCalls hCall
  have hNone {d : CallId} {q : Phase} (hd : d ≠ c) (hHolds : q.holds = true) : s'.phase? d ≠ some q := by
    intro hPhase
    rw [phase?_setPhase_ne hCalls hd] at hPhase
    rw [hCoherent.holder_of_holds hPhase hHolds] at hFree
    contradiction
  refine ⟨fun d t' u hWaiting hOpen => ?_, fun d o u hDelivered _ => ?_⟩
  · by_cases hd : d = c
    · subst hd
      rw [hSelf, Option.some.injEq, Phase.waiting.injEq] at hWaiting
      exact hWaiting ▸ hOnly u hOpen
    · exact absurd hWaiting (hNone hd rfl)
  · by_cases hd : d = c
    · subst hd
      rw [hSelf] at hDelivered
      cases hDelivered
    · exact hNone hd rfl hDelivered

/-- Once the outcome of its round trip has reached a call, no round trip is under way. -/
theorem of_delivered (h : Tenure s) {o : Outcome} (hCalls : s'.calls = (s.setPhase c (.delivered o)).calls)
    (hCall : s.calls[c]? = some k) (hPhase : k.phase = .waiting t) (hTrip : s.trips[t]? = some (.finished o))
    (hTrips : s'.trips = s.trips) : Tenure s' := by
  have hSelf := phase?_setPhase_self hCalls hCall
  have hWaiting : s.phase? c = some (.waiting t) := phase?_eq_some.mpr ⟨k, hCall, hPhase⟩
  refine ⟨fun d t' u hPhase hOpen => ?_, fun d o' u hPhase hOpen => ?_⟩
  · have hd : d ≠ c := by
      rintro rfl
      rw [hSelf] at hPhase
      cases hPhase
    rw [phase?_setPhase_ne hCalls hd] at hPhase
    exact h.waiting d t' u hPhase ((underWay_congr hTrips).mp hOpen)
  · rw [underWay_congr hTrips] at hOpen
    by_cases hd : d = c
    · -- the only round trip that could be under way has finished
      rw [h.waiting c t u hWaiting hOpen] at hOpen
      exact hOpen.not_finished hTrip
    · rw [phase?_setPhase_ne hCalls hd] at hPhase
      exact h.delivered d o' u hPhase hOpen

theorem turn (h : Tenure s) (hCoherent : Coherent cfg none s.ready s) (hFlight : SingleFlight s) :
    Tenure (s.turn cfg) := by
  cases calls_effect hCoherent with
  | quiet hCalls hLength =>
      exact h.of_same (fun c p hPhase _ => phase?_congr hCalls c ▸ hPhase)
        fun u hOpen => underWay_of_length (m := .turn) hLength hOpen
  | stepped c k rest p trips _ hCall hCalls hTrips _ hStep =>
      cases hStep with
      | joined t _ hFree hPending _ =>
          refine of_given hCoherent hFree hCalls hCall fun u hu => ?_
          have hJoined := hFlight.eq_of_underWay ((underWay_congr hTrips).mp hu)
          exact Option.some.inj (hJoined.symm.trans hPending)
      | began _ hFree hPending =>
          refine of_given hCoherent hFree hCalls hCall fun u hu => ?_
          refine (underWay_began hTrips hu).resolve_left fun hOld => ?_
          have hFinished := hPending u (hFlight.eq_of_underWay hOld)
          rw [hOld.isFinished_eq] at hFinished
          contradiction
      | _ => exact h.of_gone hCalls hCall rfl hTrips
  | delivered t c call rest o _ hCall hTrip hCalls hTrips =>
      exact h.of_delivered hCalls hCall rfl hTrip hTrips

end Tenure

end Bearer.Cache.State
