import Bearer.Proofs.Cache.Settling
import Bearer.Proofs.Cache.Sound

/-! Once nothing is left to do, a call that has not ended waits for the lock or for a round trip. -/

namespace Bearer.Cache.State

variable {cfg : Config} {s : State} {c : CallId} {t : TripId}

/-- A call has been made and has not ended. -/
def Unfinished (s : State) (c : CallId) : Prop := c < s.calls.length ∧ s.result? c = none

theorem result?_eq_some {r : Result} : s.result? c = some r ↔ s.phase? c = some (.finished r) := by
  unfold result?
  split
  · next r' hPhase => rw [hPhase, Option.some.injEq, Option.some.injEq, Phase.finished.injEq]
  · next hOther => exact ⟨fun h => by contradiction, fun h => absurd h (hOther r)⟩

theorem unfinished_iff : s.Unfinished c ↔ ∃ k, s.calls[c]? = some k ∧ ∀ r, k.phase ≠ .finished r := by
  constructor
  · rintro ⟨hBound, hNone⟩
    refine ⟨_, List.getElem?_eq_getElem hBound, fun r hPhase => ?_⟩
    have hResult : s.result? c = some r :=
      result?_eq_some.mpr (phase?_eq_some.mpr ⟨_, List.getElem?_eq_getElem hBound, hPhase⟩)
    rw [hNone] at hResult
    contradiction
  · rintro ⟨k, hCall, hOpen⟩
    refine ⟨(List.getElem?_eq_some_iff.mp hCall).1, ?_⟩
    cases hResult : s.result? c with
    | none => rfl
    | some r =>
        obtain ⟨k', hCall', hPhase⟩ := phase?_eq_some.mp (result?_eq_some.mp hResult)
        exact absurd hPhase (Option.some.inj (hCall'.symm.trans hCall) ▸ hOpen r)

theorem inFlight_pos (hSent : s.trips[t]? = some .sent) : 0 < s.inFlight :=
  List.countP_pos_iff.mpr ⟨.sent, List.mem_of_getElem? hSent, rfl⟩

namespace Sound

/-- At most one request waits for its answer. -/
theorem inFlight_le_one (h : Sound cfg s) : s.inFlight ≤ 1 := by
  refine countP_le_one _ fun i j x y hx hy hSentX hSentY => ?_
  have hOpen {trip : Trip} (hSent : trip.isSent = true) : trip.isFinished = false := by
    cases trip with
    | sent => rfl
    | _ => contradiction
  have hi := h.flight.pending_of_unfinished i x hx (hOpen hSentX)
  have hj := h.flight.pending_of_unfinished j y hy (hOpen hSentY)
  exact Option.some.inj (hi.symm.trans hj)

theorem inFlight_eq_one (h : Sound cfg s) (hSent : s.trips[t]? = some .sent) : s.inFlight = 1 :=
  Nat.le_antisymm h.inFlight_le_one (inFlight_pos hSent)

/-- Without gating no request waits for its answer. -/
theorem inFlight_eq_zero (h : Sound cfg s) (hGated : ∀ t, cfg.gated.waits t = false) :
    s.inFlight = 0 := by
  refine List.countP_eq_zero.mpr fun trip hMem hSent => ?_
  obtain ⟨t, hTrip⟩ := List.mem_iff_getElem?.mp hMem
  rcases h.prompt t trip hTrip (hGated t) with hStarting | hFinished
  · rw [hStarting] at hSent
    contradiction
  · cases trip <;> contradiction

/-- Once nothing is left to do, the call that holds the lock waits for a request that is sent. -/
theorem holder_waits (h : Sound cfg s) (hReady : s.ready = []) (hHolder : s.lock.holder = some c) :
    s.Unfinished c ∧ ∃ t, s.phase? c = some (.waiting t) ∧ s.trips[t]? = some .sent := by
  obtain ⟨k, hCall, hHolds⟩ := h.coherent.holder c hHolder (by simp)
  have hOpen : ∀ r, k.phase ≠ .finished r := by
    intro r hPhase
    rw [hPhase] at hHolds
    contradiction
  refine ⟨unfinished_iff.mpr ⟨k, hCall, hOpen⟩, ?_⟩
  rcases (h.waits_of_open hReady hCall hOpen).2 with ⟨hQueued, _⟩ | ⟨t, hPhase, hSent⟩
  · rw [hQueued] at hHolds
    contradiction
  · exact ⟨t, phase?_eq_some.mpr ⟨k, hCall, hPhase⟩, hSent⟩

/-- Once nothing is left to do, all in the queue for the lock still wait. -/
theorem waiting_of_settled (h : Sound cfg s) (hReady : s.ready = []) {w : Wait}
    (hw : (c, w) ∈ s.lock.waiters) : w = .waiting := by
  have hDue := (h.coherent.waiter c w hw).2.due_eq
  rw [hReady] at hDue
  cases w with
  | waiting => rfl
  | woken => contradiction
  | cancelled => contradiction

/-- Nobody stands in the queue for a lock that nobody holds. -/
theorem holder_of_waiter (h : Sound cfg s) (hReady : s.ready = []) (hQueue : s.lock.waiters ≠ []) :
    ∃ d, s.lock.holder = some d := by
  cases hHolder : s.lock.holder with
  | some d => exact ⟨d, rfl⟩
  | none =>
      rcases hWaiters : s.lock.waiters with _ | ⟨⟨d, w⟩, rest⟩
      · exact absurd hWaiters hQueue
      · have hw : w = .waiting := h.waiting_of_settled hReady (hWaiters ▸ List.mem_cons_self)
        exact absurd (hw ▸ hWaiters) (h.passedOn hHolder d rest)

/-- Once nothing is left to do, a call that has not ended holds the lock or stands in its queue, and the
call that holds the lock waits for a request that is sent. -/
theorem holder_of_unfinished (h : Sound cfg s) (hReady : s.ready = []) (hOpen : s.Unfinished c) :
    ∃ d t, s.Unfinished d ∧ s.lock.holder = some d ∧ s.phase? d = some (.waiting t) ∧
      s.trips[t]? = some .sent ∧ (c ≠ d → s.phase? c = some .queued) := by
  obtain ⟨k, hCall, hNotEnded⟩ := unfinished_iff.mp hOpen
  rcases (h.waits_of_open hReady hCall hNotEnded).2 with ⟨hQueued, hPlace⟩ | ⟨t, hPhase, hSent⟩
  · obtain ⟨d, hHolder⟩ := h.holder_of_waiter hReady (List.ne_nil_of_mem hPlace)
    obtain ⟨hOpen', t, hPhase, hSent⟩ := h.holder_waits hReady hHolder
    exact ⟨d, t, hOpen', hHolder, hPhase, hSent, fun _ => phase?_eq_some.mpr ⟨k, hCall, hQueued⟩⟩
  · have hWaiting := phase?_eq_some.mpr ⟨k, hCall, hPhase⟩
    exact ⟨c, t, hOpen, h.coherent.holder_of_holds hWaiting rfl, hWaiting, hSent, fun hNe => absurd rfl hNe⟩

/-- Once nothing is left to do and no call is unfinished, the lock is free. -/
theorem lock_of_finished (h : Sound cfg s) (hReady : s.ready = []) (hDone : ∀ c, ¬s.Unfinished c) :
    s.lock = {} := by
  have hHolder : s.lock.holder = none := by
    cases hHolder : s.lock.holder with
    | none => rfl
    | some d => exact absurd (h.holder_waits hReady hHolder).1 (hDone d)
  have hWaiters : s.lock.waiters = [] := by
    by_contra hQueue
    obtain ⟨d, hd⟩ := h.holder_of_waiter hReady hQueue
    rw [hHolder] at hd
    contradiction
  rcases hLock : s.lock with ⟨holder, waiters⟩
  rw [hLock] at hHolder hWaiters
  dsimp only at hHolder hWaiters
  rw [hHolder, hWaiters]

/-- Once nothing is left to do, a round trip can be joined only while its request waits. -/
theorem pending_of_settled (h : Sound cfg s) (hReady : s.ready = []) (hFlight : s.inFlight = 0) :
    s.pending = none := by
  cases hPending : s.pending with
  | none => rfl
  | some t =>
      obtain ⟨hBound, hRetire⟩ := h.coherent.pending t hPending
      have hTrip : s.trips[t]? = some s.trips[t] := List.getElem?_eq_getElem hBound
      cases hFinished : s.trips[t].isFinished with
      | true =>
          have hDone : s.isFinished t = true := by
            rw [isFinished, hTrip]
            exact hFinished
          have hTask := hRetire hDone
          rw [hReady] at hTask
          contradiction
      | false =>
          have hPos := inFlight_pos (h.sent_of_underWay hReady ⟨_, hTrip, hFinished⟩)
          omega

end Sound

/-- No wakeup is lost. Whenever nothing is left to do and no request waits for its answer, every call has
ended, the lock is free with an empty queue and there is no round trip to join. Whenever nothing is left
to do and some call has not ended, one request waits, and one call holds the lock and waits for that
request while all others that have not ended stand in the queue. Each step of a run ends with nothing left
to do, and if requests are answered at once, with all calls ended. -/
theorem no_lost_wakeup (cfg : Config) (clock : Instant) (held : HeldToken) (replies : List Reply) :
    (∀ moves : List Move,
      let s := (start clock held replies).play cfg moves
      s.ready = [] →
        (s.inFlight = 0 → (∀ c, ¬s.Unfinished c) ∧ s.lock = {} ∧ s.pending = none) ∧
        ∀ c, s.Unfinished c → s.inFlight = 1 ∧
          ∃ d t, s.Unfinished d ∧ s.lock.holder = some d ∧ s.phase? d = some (.waiting t) ∧
            s.trips[t]? = some .sent ∧ ∀ e, s.Unfinished e → e ≠ d → s.phase? e = some .queued) ∧
    ∀ steps : List (List Action),
      let s := (start clock held replies).run cfg steps
      s.ready = [] ∧ (∃ moves, s = (start clock held replies).play cfg moves) ∧
        ((∀ t, cfg.gated.waits t = false) → s.inFlight = 0 ∧ ∀ c, ¬s.Unfinished c) := by
  have hSettled {s : State} (h : Sound cfg s) (hReady : s.ready = []) (hFlight : s.inFlight = 0) (c : CallId) :
      ¬s.Unfinished c := by
    intro hOpen
    obtain ⟨_, _, _, _, _, hSent, _⟩ := h.holder_of_unfinished hReady hOpen
    have hPos := inFlight_pos hSent
    omega
  constructor
  · intro moves s hReady
    have h : Sound cfg s := (Sound.start clock held replies).play moves
    refine ⟨fun hFlight => ?_, fun c hOpen => ?_⟩
    · have hDone := hSettled h hReady hFlight
      exact ⟨hDone, h.lock_of_finished hReady hDone, h.pending_of_settled hReady hFlight⟩
    · obtain ⟨d, t, hOpen', hHolder, hPhase, hSent, _⟩ := h.holder_of_unfinished hReady hOpen
      refine ⟨h.inFlight_eq_one hSent, d, t, hOpen', hHolder, hPhase, hSent, fun e hOpenE hNe => ?_⟩
      obtain ⟨d', _, _, hHolder', _, _, hQueued⟩ := h.holder_of_unfinished hReady hOpenE
      rw [hHolder, Option.some.injEq] at hHolder'
      exact hQueued (hHolder' ▸ hNe)
  · intro steps s
    have hReady : s.ready = [] := run_ready _ rfl steps
    have h : Sound cfg s := (Sound.start clock held replies).run steps
    refine ⟨hReady, run_eq_play cfg _ steps, fun hGated => ?_⟩
    have hFlight := h.inFlight_eq_zero hGated
    exact ⟨hFlight, hSettled h hReady hFlight⟩

/-- Of three calls the first is cancelled while its request waits: the second holds the lock and joins
the round trip, and the last one still stands in the queue. -/
example :
    let cfg : Config :=
      { source := .refreshable ⟨"R", "id", "s"⟩, url := Grant.defaultUrl, margin := .minute, gated := true }
    let s := (start ⟨1704110400000000, by decide, by decide⟩ {} []).run cfg
      [[.call .token, .call .refresh, .call .token], [.cancel 0]]
    s.inFlight = 1 ∧ s.lock.holder = some 1 ∧ s.phase? 1 = some (.waiting 0) ∧ s.phase? 2 = some .queued := by
  decide +kernel

end Bearer.Cache.State
