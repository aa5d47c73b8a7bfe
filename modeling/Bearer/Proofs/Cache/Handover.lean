import Bearer.Proofs.Cache.Requests
import Bearer.Proofs.Cache.Sound
import Bearer.Proofs.Cache.Classification
import Mathlib.Data.Fintype.Card

/-! The outcome of a round trip is handed to one call at most, and that call was given the lock while the round trip
was under way. -/

namespace Bearer.Cache.State

variable {cfg : Config} {first s : State} {c d : CallId} {t u : TripId} {k : Caller} {o : Outcome}
  {moves : List Move} {m : Move}

/-- A call has not been given the lock: it is yet to be made, to start or to leave the queue. -/
def Unserved (s : State) (c : CallId) : Prop :=
  ∀ p, s.phase? c = some p → p = .starting ∨ p = .queued

theorem Unserved.of_caller (hCall : s.calls[c]? = some k) (hEarly : k.phase = .starting ∨ k.phase = .queued) :
    s.Unserved c := by
  intro p hPhase
  rw [phase?, hCall, Option.map_some, Option.some.injEq] at hPhase
  exact hPhase ▸ hEarly

/-- A call that is yet to be made has not been served. -/
theorem Unserved.of_length (hLength : s.calls.length ≤ c) : s.Unserved c := by
  intro p hPhase
  rw [phase?, List.getElem?_eq_none hLength] at hPhase
  contradiction

/-- A call that has been served stays served. -/
theorem Unserved.of_move (h : (s.move cfg m).Unserved c) : s.Unserved c := by
  intro p hPhase
  obtain ⟨k, hCall, rfl⟩ := phase?_eq_some.mp hPhase
  obtain ⟨k', hCall', hEffect⟩ := caller_effect cfg m hCall
  have hAfter := h k'.phase (phase?_eq_some.mpr ⟨k', hCall', rfl⟩)
  cases hEffect with
  | quiet hSame => exact hSame ▸ hAfter
  | flagged hSame =>
      rw [hSame] at hAfter
      exact hAfter
  | served hEarly _ _ => exact hEarly
  | gaveUp _ _ _ hSame =>
      rw [hSame] at hAfter
      simp at hAfter
  | reached _ o _ _ _ hSame =>
      rw [hSame] at hAfter
      simp at hAfter
  | ended o _ hSame =>
      rw [hSame] at hAfter
      simp at hAfter

/-- A call begins to wait only for a round trip under way, when it is given a lock that nobody holds. -/
theorem waiting_move (h : Sound cfg s) (hWaiting : (s.move cfg m).phase? c = some (.waiting t)) :
    s.phase? c = some (.waiting t) ∨
      s.Unserved c ∧ s.lock.holder = none ∧ (s.move cfg m).UnderWay t := by
  cases m with
  | act a =>
      rcases phase?_act s a c with hSame | ⟨_, hStarting⟩
      · exact .inl (hSame ▸ hWaiting)
      · rw [State.move, hStarting] at hWaiting
        cases hWaiting
  | turn =>
      rw [State.move] at hWaiting ⊢
      cases calls_effect h.coherent with
      | quiet hCalls _ => exact .inl (phase?_congr hCalls c ▸ hWaiting)
      | stepped d k _ p trips _ hCall hCalls hTrips _ hStep =>
          by_cases hcd : c = d
          · subst hcd
            rw [phase?_setPhase_self hCalls hCall, Option.some.injEq] at hWaiting
            subst hWaiting
            cases hStep with
            | joined _ hEarly hFree hPending hOpen =>
                have hBound := (h.coherent.pending t hPending).1
                have hUnderWay : s.UnderWay t := by
                  refine ⟨_, List.getElem?_eq_getElem hBound, ?_⟩
                  rw [isFinished, List.getElem?_eq_getElem hBound] at hOpen
                  exact hOpen
                exact .inr ⟨.of_caller hCall hEarly, hFree, (underWay_congr hTrips).mpr hUnderWay⟩
            | began hEarly hFree _ =>
                exact .inr ⟨.of_caller hCall hEarly, hFree, .starting, by rw [hTrips]; simp, rfl⟩
          · exact .inl (phase?_setPhase_ne hCalls hcd ▸ hWaiting)
      | delivered u d call _ o _ hCall _ hCalls _ =>
          by_cases hcd : c = d
          · subst hcd
            rw [phase?_setPhase_self hCalls hCall] at hWaiting
            cases hWaiting
          · exact .inl (phase?_setPhase_ne hCalls hcd ▸ hWaiting)

/-- Moves of a kind find something open, close it, and it stays closed. -/
structure Closes (cfg : Config) (E : State → Move → Prop) (Closed : State → Prop) : Prop where
  opened : ∀ s m, Sound cfg s → E s m → ¬Closed s
  closed : ∀ s m, Sound cfg s → E s m → Closed (s.move cfg m)
  stays : ∀ s m, Sound cfg s → Closed s → Closed (s.move cfg m)

namespace Closes

variable {E : State → Move → Prop} {Closed : State → Prop}

theorem never (h : Closes cfg E Closed) (hSound : Sound cfg s) (hClosed : Closed s) :
    ¬s.Sometime cfg E moves := by
  induction moves generalizing s with
  | nil => exact id
  | cons m moves ih =>
      rintro (hNow | hLater)
      · exact h.opened s m hSound hNow hClosed
      · exact ih (hSound.move m) (h.stays s m hSound hClosed) hLater

theorem closed_play (h : Closes cfg E Closed) (hSound : Sound cfg s) (hSome : s.Sometime cfg E moves) :
    Closed (s.play cfg moves) := by
  have hStays {s : State} (hSound : Sound cfg s) (hClosed : Closed s) (moves : List Move) :
      Closed (s.play cfg moves) :=
    (play_invariant (P := fun s => Sound cfg s ∧ Closed s) ⟨hSound, hClosed⟩
      (fun s m hs => ⟨hs.1.move m, h.stays s m hs.1 hs.2⟩) moves).2
  induction moves generalizing s with
  | nil => exact False.elim hSome
  | cons m moves ih =>
      rcases hSome with hNow | hLater
      · exact hStays (hSound.move m) (h.closed s m hSound hNow) moves
      · exact ih (hSound.move m) hLater

/-- Two things that would close the same are one. -/
theorem unique {α : Type} {E : α → State → Move → Prop} (h : ∀ x, Closes cfg (E x) Closed)
    (hSame : ∀ s m x y, Sound cfg s → E x s m → E y s m → x = y) (hSound : Sound cfg s) {x y : α}
    (hx : s.Sometime cfg (E x) moves) (hy : s.Sometime cfg (E y) moves) : x = y := by
  induction moves generalizing s with
  | nil => exact False.elim hx
  | cons m moves ih =>
      rcases hx with hx | hx
      · rcases hy with hy | hy
        · exact hSame s m x y hSound hx hy
        · exact absurd hy ((h y).never (hSound.move m) ((h x).closed s m hSound hx))
      · rcases hy with hy | hy
        · exact absurd hx ((h x).never (hSound.move m) ((h y).closed s m hSound hy))
        · exact ih (hSound.move m) hx hy

end Closes

/-- A move hands a call the outcome of the round trip that it waits for. -/
def HandsOver (cfg : Config) (t : TripId) (c : CallId) (s : State) (m : Move) : Prop :=
  s.phase? c = some (.waiting t) ∧
    ∃ o, s.trips[t]? = some (.finished o) ∧ (s.move cfg m).phase? c = some (.delivered o)

/-- A round trip has finished and no call waits for it. -/
def Spent (t : TripId) (s : State) : Prop :=
  (∃ o, s.trips[t]? = some (.finished o)) ∧ ∀ c, s.phase? c ≠ some (.waiting t)

/-- An outcome has reached a call, or the call has ended. -/
def Reached (c : CallId) (s : State) : Prop :=
  ∃ k, s.calls[c]? = some k ∧ ((∃ o, k.phase = .delivered o) ∨ ∃ r, k.phase = .finished r)

theorem handsOver_spends (t : TripId) (c : CallId) : Closes cfg (HandsOver cfg t c) (Spent t) where
  opened s m _ hHands hSpent := hSpent.2 c hHands.1
  closed s m h hHands := by
    obtain ⟨hWaits, o, hTrip, hDelivered⟩ := hHands
    refine ⟨⟨o, finished_move m hTrip⟩, fun d hd => ?_⟩
    rcases waiting_move h hd with hBefore | ⟨_, _, hOpen⟩
    · rw [h.eq_of_holds hBefore hWaits rfl rfl, hDelivered] at hd
      cases hd
    · exact hOpen.not_finished (finished_move m hTrip)
  stays s m h hSpent := by
    obtain ⟨⟨o, hTrip⟩, hNobody⟩ := hSpent
    refine ⟨⟨o, finished_move m hTrip⟩, fun d hd => ?_⟩
    rcases waiting_move h hd with hBefore | ⟨_, _, hOpen⟩
    · exact hNobody d hBefore
    · exact hOpen.not_finished (finished_move m hTrip)

theorem handsOver_reaches (t : TripId) (c : CallId) : Closes cfg (HandsOver cfg t c) (Reached c) where
  opened s m _ hHands hReached := by
    obtain ⟨k, hCall, hPhase⟩ := hReached
    obtain ⟨k', hCall', hWaits⟩ := phase?_eq_some.mp hHands.1
    rw [Option.some.inj (hCall'.symm.trans hCall)] at hWaits
    simp [hWaits] at hPhase
  closed s m _ hHands := by
    obtain ⟨_, o, _, hDelivered⟩ := hHands
    obtain ⟨k, hCall, hPhase⟩ := phase?_eq_some.mp hDelivered
    exact ⟨k, hCall, .inl ⟨o, hPhase⟩⟩
  stays s m _ hReached := by
    obtain ⟨k, hCall, hPhase⟩ := hReached
    obtain ⟨k', hCall', hEffect⟩ := caller_effect cfg m hCall
    refine ⟨k', hCall', ?_⟩
    cases hEffect with
    | quiet hSame => exact hSame ▸ hPhase
    | flagged hSame =>
        rw [hSame]
        exact hPhase
    | served hEarly _ _ => rcases hEarly with hEarly | hEarly <;> simp [hEarly] at hPhase
    | gaveUp _ _ _ hSame => exact .inr ⟨_, by rw [hSame]⟩
    | reached _ o _ _ _ hSame => exact .inl ⟨o, by rw [hSame]⟩
    | ended o _ hSame => exact .inr ⟨_, by rw [hSame]⟩

/-- The outcome of a round trip is handed to one call at most. -/
theorem handsOver_unique_call (h : Sound cfg first) (hc : first.Sometime cfg (HandsOver cfg t c) moves)
    (hd : first.Sometime cfg (HandsOver cfg t d) moves) : c = d :=
  Closes.unique (E := fun c => HandsOver cfg t c) (fun c => handsOver_spends t c)
    (fun _ _ _ _ hs hx hy => hs.eq_of_holds hx.1 hy.1 rfl rfl) h hc hd

/-- A call is handed the outcome of one round trip at most. -/
theorem handsOver_unique_trip (h : Sound cfg first) (ht : first.Sometime cfg (HandsOver cfg t c) moves)
    (hu : first.Sometime cfg (HandsOver cfg u c) moves) : t = u :=
  Closes.unique (E := fun t => HandsOver cfg t c) (fun t => handsOver_reaches t c)
    (fun _ _ _ _ _ hx hy => Phase.waiting.inj (Option.some.inj (hx.1.symm.trans hy.1))) h ht hu

/-- A move is the step of a call that begins a round trip. -/
def Begins (cfg : Config) (t : TripId) (c : CallId) (s : State) (m : Move) : Prop :=
  s.trips.length = t ∧ (s.move cfg m).trips.length = t + 1 ∧ s.Unserved c ∧
    (s.move cfg m).phase? c = some (.waiting t)

theorem begins_serves (t : TripId) (c : CallId) :
    Closes cfg (Begins cfg t c) (fun s => ¬s.Unserved c) where
  opened _ _ _ hBegins hServed := hServed hBegins.2.2.1
  closed _ _ _ hBegins hUnserved := by
    have := hUnserved _ hBegins.2.2.2
    simp at this
  stays _ _ _ hServed hUnserved := hServed hUnserved.of_move

/-- A call begins one round trip at most. -/
theorem begins_unique (h : Sound cfg first) (ht : first.Sometime cfg (Begins cfg t c) moves)
    (hu : first.Sometime cfg (Begins cfg u c) moves) : t = u :=
  Closes.unique (E := fun t => Begins cfg t c) (fun t => begins_serves t c)
    (fun _ _ _ _ _ hx hy => hx.1.symm.trans hy.1) h ht hu

/-- A move begins one round trip at most, and it is the step of a call if it does. -/
theorem length_move (h : Sound cfg s) (m : Move) : (s.move cfg m).trips.length = s.trips.length ∨
    ∃ c, Begins cfg s.trips.length c s m := by
  cases m with
  | act a =>
      left
      obtain ⟨_, hTrips | ⟨u, _, hTrips⟩⟩ := act_effect s a
      · exact congrArg List.length hTrips
      · rw [State.move, hTrips, List.length_set]
  | turn =>
      cases calls_effect h.coherent with
      | quiet _ hLength => exact .inl hLength
      | stepped c k _ p trips _ hCall hCalls hTrips _ hStep =>
          cases hStep with
          | began hEarly _ _ =>
              refine .inr ⟨c, rfl, ?_, .of_caller hCall hEarly, phase?_setPhase_self hCalls hCall⟩
              rw [State.move, hTrips, List.length_append, List.length_singleton]
          | _ => exact .inl (congrArg List.length hTrips)
      | delivered _ _ _ _ _ _ _ _ _ hTrips => exact .inl (congrArg List.length hTrips)

/-- Every round trip is begun by a call. -/
theorem begins_of_trip (h : Sound cfg first) (hOld : first.trips.length ≤ t)
    (hNew : t < (first.play cfg moves).trips.length) : ∃ c, first.Sometime cfg (Begins cfg t c) moves := by
  induction moves generalizing first with
  | nil => exact absurd hNew (Nat.not_lt.mpr hOld)
  | cons m moves ih =>
      have hLater (hLength : (first.move cfg m).trips.length ≤ t) :
          ∃ c, first.Sometime cfg (Begins cfg t c) (m :: moves) := by
        obtain ⟨c, hc⟩ := ih (h.move m) hLength hNew
        exact ⟨c, .inr hc⟩
      rcases length_move h m with hSame | ⟨c, hBegins⟩
      · exact hLater (hSame ▸ hOld)
      · rcases Nat.eq_or_lt_of_le hOld with hNow | hMore
        · exact ⟨c, .inl (hNow ▸ hBegins)⟩
        · exact hLater (hBegins.2.1 ▸ hMore)

/-- There are no more round trips than calls. -/
theorem trips_le_calls (h : Sound cfg first) (hNone : first.trips = []) (moves : List Move) :
    (first.play cfg moves).trips.length ≤ (first.play cfg moves).calls.length := by
  have hBegun (t : Fin (first.play cfg moves).trips.length) :
      ∃ c : Fin (first.play cfg moves).calls.length, first.Sometime cfg (Begins cfg t c) moves := by
    obtain ⟨c, hc⟩ := begins_of_trip h (by simp [hNone]) t.isLt
    have hServed := (begins_serves t.val c).closed_play h hc
    have hBound : c < (first.play cfg moves).calls.length :=
      Nat.lt_of_not_le fun hLength => hServed (.of_length hLength)
    exact ⟨⟨c, hBound⟩, hc⟩
  choose call hCall using hBegun
  have hInjective : Function.Injective call := fun t u hSame =>
    Fin.ext (begins_unique h (hCall t) (hSame ▸ hCall u))
  simpa using Fintype.card_le_of_injective call hInjective

end Bearer.Cache.State
