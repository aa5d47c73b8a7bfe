import Bearer.Proofs.Cache.Atomicity
import Bearer.Proofs.Cache.Wakeup

/-! Once nothing is left to do, a call that has not ended stands in the queue for the lock or holds it and waits for a
request that is sent. In the queue it gives up its place and nothing else moves. -/

namespace Bearer.Cache.State

variable {cfg : Config} {s s' s'' : State} {c d : CallId} {t : TripId} {k : Caller}

/-- One call has ended as cancelled. Nothing else has: the store, the round trips, the requests and the
results of other calls are as they were. -/
structure OnlyCancelled (c : CallId) (s s' : State) : Prop where
  result : s'.result? c = some .cancelled
  others : ∀ d, d ≠ c → s'.result? d = s.result? d
  length : s'.calls.length = s.calls.length
  finished : s'.finished = s.finished ++ [(c, .cancelled)]
  requests : s'.requests = s.requests
  trips : s'.trips = s.trips
  store : SameStore s s'

namespace OnlyCancelled

/-- The step with which a cancelled call ends. -/
theorem of_ended (hCall : s.calls[c]? = some k)
    (hCalls : s'.calls = ((s.flag c).setPhase c (.finished .cancelled)).calls)
    (hTrace : s'.trace = s.trace ++ [.finished c .cancelled]) (hTrips : s'.trips = s.trips)
    (hStore : SameStore s s') : OnlyCancelled c s s' where
  result := result?_eq_some.mpr (phase?_setPhase_self hCalls (calls_flag_self hCall))
  others d hd := by
    rw [result?, phase?_setPhase_ne hCalls hd, phase?, calls_flag_ne hd]
    rfl
  length := by
    rw [hCalls]
    simp [setPhase, flag]
  finished := by
    rw [State.finished, hTrace]
    exact finished_observe [.finished c .cancelled] s
  requests := by
    have hSame : (s.observe [.finished c .cancelled]).requests = s.requests :=
      requests_observe_eq (by simp) s
    rw [State.requests, hTrace]
    exact hSame
  trips := hTrips
  store := hStore

/-- Another call may be given the lock and wait for a round trip. -/
theorem joined (h : OnlyCancelled c s s') (hCall : s'.calls[d]? = some k) (hPhase : k.phase = .queued)
    (hCalls : s''.calls = (s'.setPhase d (.waiting t)).calls)
    (hTrace : s''.trace = s'.trace ++ [.acquired d]) (hTrips : s''.trips = s'.trips)
    (hStore : SameStore s' s'') : OnlyCancelled c s s'' := by
  have hResult (e : CallId) : s''.result? e = s'.result? e := by
    by_cases he : e = d
    · subst he
      rw [result?, phase?_setPhase_self hCalls hCall, result?, phase?, hCall, Option.map_some, hPhase]
    · rw [result?, phase?_setPhase_ne hCalls he]
      rfl
  exact {
    result := (hResult c).trans h.result
    others := fun e he => (hResult e).trans (h.others e he)
    length := by
      rw [hCalls, ← h.length]
      simp [setPhase]
    finished := by
      have hSame : (s'.observe [.acquired d]).finished = s'.finished := finished_observe_eq (by simp) s'
      rw [State.finished, hTrace, ← h.finished]
      exact hSame
    requests := by
      have hSame : (s'.observe [.acquired d]).requests = s'.requests := requests_observe_eq (by simp) s'
      rw [State.requests, hTrace, ← h.requests]
      exact hSame
    trips := hTrips.trans h.trips
    store := h.store.trans hStore }

end OnlyCancelled

theorem turn_eq {task : Task} {rest : List Task} (hReady : s.ready = task :: rest) :
    s.turn cfg = { s with ready := rest }.perform cfg task := by
  rw [turn, hReady]

/-- A call in the queue for a lock that is held gives up its place and ends. -/
theorem onlyCancelled_of_queued (hReady : s.ready = []) (hCall : s.calls[c]? = some k)
    (hPhase : k.phase = .queued) (hPlace : (c, .waiting) ∈ s.lock.waiters)
    (hHolder : s.lock.holder = some d) : OnlyCancelled c s (s.step cfg [.cancel c]) := by
  have hCancel : s.cancel c = { s.flag c with lock := s.lock.giveUp c }.schedule [.call c] := by
    simp only [cancel, hCall, hPhase, Lock.isWaiting_iff.mpr hPlace, if_true]
    rfl
  have hDue : (s.cancel c).ready = [.call c] := by
    rw [hCancel]
    simp [schedule, flag, hReady]
  have hTurn : (s.cancel c).turn cfg =
      { s.flag c with lock := (s.lock.giveUp c).leave c, ready := [] }.finish c .cancelled := by
    have hHeld : ((s.lock.giveUp c).leave c).holder.isNone = false := by
      change s.lock.holder.isNone = false
      rw [hHolder]
      rfl
    rw [turn_eq hDue, perform, stepCall, hCancel]
    simp only [schedule, calls_flag_self hCall, hPhase, resumeQueued, hHeld, if_true, Bool.false_eq_true,
      if_false]
  have hStep : s.step cfg [.cancel c] =
      { s.flag c with lock := (s.lock.giveUp c).leave c, ready := [] }.finish c .cancelled := by
    change (s.cancel c).settle cfg = _
    rw [settle_turn cfg (by simp [hDue]), hTurn, settle_of_ready cfg rfl]
  rw [hStep]
  exact .of_ended hCall rfl rfl rfl ⟨rfl, rfl, rfl⟩

/-- A call that is given the lock joins the round trip under way. -/
theorem enter_of_pending (cfg : Config) (c : CallId) (call : Call) (hPending : s.pending = some t)
    (hOpen : s.isFinished t = false) : s.enter cfg c call =
      ({ s with lock := s.lock.take c }.observe [.acquired c]).setPhase c (.waiting t) := by
  generalize hTaken : { s with lock := s.lock.take c }.observe [.acquired c] = taken
  have hJoin : taken.pending = some t ∧ taken.isFinished t = false := by
    rw [← hTaken]
    exact ⟨hPending, hOpen⟩
  have hDrop : taken.dropFinished = taken := by
    rw [dropFinished, hJoin.1]
    simp only [hJoin.2, Bool.false_eq_true, if_false]
  have hFresh : taken.storedIsFresh? cfg call = some false := by
    cases call <;> simp only [storedIsFresh?, hJoin.1]
  rw [enter, hTaken, hDrop]
  simp only [hFresh, awaitTrip, hJoin.1]

/-- A call in the queue that is passed the lock joins the round trip under way, and nothing is left to do. -/
theorem settle_of_woken (hReady : s.ready = [.call c]) (hCall : s.calls[c]? = some k)
    (hPhase : k.phase = .queued) (hKept : k.cancelRequested = false) (hPending : s.pending = some t)
    (hOpen : s.isFinished t = false) : s.settle cfg = ({ s with
      ready := [], lock := (s.lock.leave c).take c }.observe [.acquired c]).setPhase c (.waiting t) := by
  have hTurn : s.turn cfg = ({ s with
      ready := [], lock := (s.lock.leave c).take c }.observe [.acquired c]).setPhase c (.waiting t) := by
    rw [turn_eq hReady, perform, stepCall]
    simp only [hCall, hPhase, resumeQueued, hKept, Bool.false_eq_true, if_false]
    exact enter_of_pending cfg c k.call hPending hOpen
  rw [settle_turn cfg (by simp [hReady]), hTurn, settle_of_ready cfg rfl]

/-- A call that waits for a round trip under way ends, and the next in the queue joins that round trip. -/
theorem onlyCancelled_of_waiting (h : Sound cfg s) (hReady : s.ready = []) (hCall : s.calls[c]? = some k)
    (hPhase : k.phase = .waiting t) (hCancelled : k.cancelRequested = false) (hOpen : s.UnderWay t) :
    OnlyCancelled c s (s.step cfg [.cancel c]) := by
  have hCancel : s.cancel c = (s.flag c).schedule [.call c] := by
    simp only [cancel, hCall, hPhase, hCancelled, Bool.false_eq_true, if_false]
    rfl
  have hDue : (s.cancel c).ready = [.call c] := by
    rw [hCancel]
    simp [schedule, flag, hReady]
  have hTurn : (s.cancel c).turn cfg = { s.flag c with ready := [] }.finishHolder c .cancelled := by
    rw [turn_eq hDue, perform, stepCall, hCancel]
    simp only [schedule, calls_flag_self hCall, hPhase, if_true]
  have hStep : s.step cfg [.cancel c] =
      ({ s.flag c with ready := [] }.finishHolder c .cancelled).settle cfg := by
    change (s.cancel c).settle cfg = _
    rw [settle_turn cfg (by simp [hDue]), hTurn]
  have hEnded : OnlyCancelled c s ({ s.flag c with ready := [] }.finishHolder c .cancelled) :=
    .of_ended hCall rfl rfl rfl ⟨rfl, rfl, rfl⟩
  rw [hStep]
  rcases Lock.wakeFirst_cases { s.lock with holder := none } with hNone | ⟨e, rest, hWaiters, hWoken⟩
  · -- nobody stands in the queue
    have hSettled : ({ s.flag c with ready := [] }.finishHolder c .cancelled).ready = [] := by
      change [] ++ ((Lock.wakeFirst { s.lock with holder := none }).2.toList.map Task.call) = []
      rw [hNone]
      rfl
    rw [settle_of_ready cfg hSettled]
    exact hEnded
  · -- the first in the queue is passed the lock
    obtain ⟨⟨k', hCall', hQueued, hKept, _⟩, _⟩ := (h.coherent.waiter e .waiting (by
      rw [show s.lock.waiters = _ from hWaiters]
      exact List.mem_cons_self)).2
    have hec : e ≠ c := by
      rintro rfl
      rw [Option.some.inj (hCall'.symm.trans hCall), hPhase] at hQueued
      contradiction
    generalize hPassed : { s.flag c with ready := [] }.finishHolder c .cancelled = passed at hEnded ⊢
    have hNext : passed.ready = [.call e] := by
      rw [← hPassed]
      change [] ++ ((Lock.wakeFirst { s.lock with holder := none }).2.toList.map Task.call) = _
      rw [hWoken]
      rfl
    have hNextCall : passed.calls[e]? = some k' := by
      rw [← hPassed]
      exact (calls_setPhase_ne (s := s.flag c) hec _).trans ((calls_flag_ne hec).trans hCall')
    have hPending : passed.pending = some t := by
      rw [← hPassed]
      exact h.flight.eq_of_underWay hOpen
    have hStill : passed.isFinished t = false := by
      rw [← hPassed]
      exact hOpen.isFinished_eq
    rw [settle_of_woken hNext hNextCall hQueued (hKept rfl) hPending hStill]
    exact hEnded.joined hNextCall hQueued rfl rfl rfl ⟨rfl, rfl, rfl⟩

/-- Cancelling a call once nothing is left to do ends that call and nothing else. -/
theorem onlyCancelled_of_unfinished (h : Sound cfg s) (hReady : s.ready = []) (hOpen : s.Unfinished c) :
    OnlyCancelled c s (s.step cfg [.cancel c]) := by
  obtain ⟨k, hCall, hNotEnded⟩ := unfinished_iff.mp hOpen
  obtain ⟨hCancelled, ⟨hPhase, hPlace⟩ | ⟨t, hPhase, hSent⟩⟩ := h.waits_of_open hReady hCall hNotEnded
  · obtain ⟨d, hHolder⟩ := h.holder_of_waiter hReady (List.ne_nil_of_mem hPlace)
    exact onlyCancelled_of_queued hReady hCall hPhase hPlace hHolder
  · exact onlyCancelled_of_waiting h hReady hCall hPhase hCancelled ⟨.sent, hSent, rfl⟩

/-- The request of a round trip has been sent and waits for its answer, or is about to be answered. -/
def Outstanding (s : State) (t : TripId) : Prop := s.trips[t]? = some .sent ∨ s.trips[t]? = some .released

theorem Outstanding.underWay (h : s.Outstanding t) : s.UnderWay t := by
  rcases h with hSent | hReleased
  · exact ⟨_, hSent, rfl⟩
  · exact ⟨_, hReleased, rfl⟩

/-- A round trip ends with the move that takes its answer. A grant is stored, and its token is the
outcome. -/
structure AnsweredBy (cfg : Config) (s : State) (m : Move) (t : TripId) (a : Answer) : Prop where
  outstanding : s.Outstanding t
  answer : s.answer? cfg m = some a
  ended : (s.move cfg m).isFinished t = true
  stored : ∀ g expiry, a.reply.grant? cfg.nesting = some g → g.expiry? a.now = some expiry →
    (s.move cfg m).held = ⟨some g.token, some expiry⟩ ∧
      (s.move cfg m).trips[t]? = some (.finished (.token g.token))

/-- Nothing but its answer ends a round trip whose request was sent. -/
theorem Outstanding.move (h : s.Outstanding t) (cfg : Config) (m : Move) :
    (s.move cfg m).Outstanding t ∨ ∃ a, AnsweredBy cfg s m t a := by
  have hSame {trips : List Trip} (hTrip : trips[t]? = s.trips[t]?) :
      trips[t]? = some .sent ∨ trips[t]? = some .released := hTrip ▸ h
  cases m with
  | act a =>
      left
      rw [Outstanding, State.move]
      obtain ⟨_, hTrips | ⟨u, hSent, hTrips⟩⟩ := act_effect s a
      · exact hSame (by rw [hTrips])
      · rw [hTrips]
        rcases getElem?_set_cases (t := t) .released hSent with hOther | ⟨_, hReleased⟩
        · exact hSame hOther
        · exact .inr hReleased
  | turn =>
      have hEffect := turn_effect cfg s
      generalize hTook : s.answer? cfg .turn = answer at hEffect
      -- a round trip that takes its first step is another one
      have hOther {u : TripId} (new : Trip) (hStarting : s.trips[u]? = some .starting) :
          (s.trips.set u new)[t]? = s.trips[t]? := by
        rcases getElem?_set_cases (t := t) new hStarting with hOther | ⟨rfl, _⟩
        · exact hOther
        · rcases h with hSent | hReleased
          · rw [hSent] at hStarting
            cases hStarting
          · rw [hReleased] at hStarting
            cases hStarting
      cases hEffect with
      | quiet _ hTrips => exact .inl (hSame (by rw [State.move, hTrips]))
      | begun _ _ hTrips =>
          obtain ⟨trip, hTrip, _⟩ := h.underWay
          refine .inl (hSame ?_)
          rw [State.move, hTrips, List.getElem?_append_left (List.getElem?_eq_some_iff.mp hTrip).1]
      | sent u _ hStarting hTrips => exact .inl (hSame (by rw [State.move, hTrips, hOther _ hStarting]))
      | refused u _ _ _ _ _ hStarting hTrips =>
          exact .inl (hSame (by rw [State.move, hTrips, hOther _ hStarting]))
      | answered u key old a hSource _ _ hOld _ _ _ hHeld hTrips =>
          rcases getElem?_set_cases (t := t)
            (.finished (settlement cfg.nesting cfg.margin key a.now s.held a.reply).outcome) hOld with hNext | ⟨rfl, hEnd⟩
          · exact .inl (hSame (by rw [State.move, hTrips, hNext]))
          · have hDone : (s.turn cfg).isFinished u = true := by
              rw [isFinished, hTrips, hEnd]
              rfl
            refine .inr ⟨a, h, hTook, hDone, fun g expiry hGrant hExpiry => ?_⟩
            obtain ⟨hOutcome, hStored⟩ := store_of_expiry cfg.margin s.held hExpiry
            rw [settlement_of_grant cfg.nesting cfg.margin key s.held hGrant] at hHeld hTrips hEnd
            refine ⟨hHeld.trans hStored, ?_⟩
            rw [State.move, hTrips, hEnd, hOutcome]

theorem Outstanding.play (h : s.Outstanding t) (cfg : Config) (moves : List Move) :
    (s.play cfg moves).Outstanding t ∨ s.Sometime cfg (fun v m => ∃ a, AnsweredBy cfg v m t a) moves := by
  induction moves generalizing s with
  | nil => exact .inl h
  | cons m moves ih =>
      rcases h.move cfg m with hStill | hAnswered
      · exact (ih hStill).imp_right .inr
      · exact .inr (.inl hAnswered)

/-- No turn releases a request. -/
theorem released_of_turn (h : (s.turn cfg).trips[t]? = some .released) : s.trips[t]? = some .released := by
  have hSet {u : TripId} {old new : Trip} (hOld : s.trips[u]? = some old)
      (hTrips : (s.turn cfg).trips = s.trips.set u new) (hNew : new ≠ .released) :
      s.trips[t]? = some .released := by
    rw [hTrips] at h
    rcases getElem?_set_cases (t := t) new hOld with hSame | ⟨_, hSelf⟩
    · exact hSame.symm.trans h
    · exact absurd (Option.some.inj (hSelf.symm.trans h)) hNew
  have hEffect := turn_effect cfg s
  generalize s.answer? cfg .turn = answer at hEffect
  cases hEffect with
  | quiet _ hTrips => exact hTrips ▸ h
  | begun _ _ hTrips =>
      rw [hTrips, List.getElem?_append] at h
      split at h
      · exact h
      · cases List.mem_singleton.mp (List.mem_of_getElem? h)
  | sent u _ hOld hTrips => exact hSet hOld hTrips (by simp)
  | refused u _ _ _ _ _ hOld hTrips => exact hSet hOld hTrips (by simp)
  | answered u _ _ _ _ _ _ hOld _ _ _ _ hTrips => exact hSet hOld hTrips (by simp)

/-- While all requests wait for their release, a turn takes no other answer than a released one. -/
theorem answer?_of_gated (hGated : ∀ t, s.isFinished t = false → cfg.gated.waits t = true)
    (hNone : ∀ t : TripId, s.trips[t]? ≠ some .released) (m : Move) : s.answer? cfg m = none := by
  unfold answer?
  split
  · rfl
  · split
    · next t _ _ =>
        have hTakes : s.takesReply cfg t = false := by
          unfold takesReply
          split
          · next hStarting =>
              rw [hGated t (by rw [isFinished, hStarting]; rfl)]
              rfl
          · next hReleased => exact absurd hReleased (hNone t)
          · rfl
        rw [tripAnswer?, hTakes, if_neg Bool.false_ne_true]
    · rfl

theorem isFinished_eq_true : s.isFinished t = true ↔ ∃ o, s.trips[t]? = some (.finished o) := by
  unfold isFinished
  cases s.trips[t]? with
  | none => simp
  | some trip => cases trip <;> simp [Trip.isFinished]

theorem isFinished_of_move (m : Move) (h : (s.move cfg m).isFinished t = false) : s.isFinished t = false := by
  cases hDone : s.isFinished t with
  | false => rfl
  | true =>
      obtain ⟨o, hTrip⟩ := isFinished_eq_true.mp hDone
      rw [isFinished_eq_true.mpr ⟨o, finished_move m hTrip⟩] at h
      contradiction

/-- Settling takes no answer that has not been released. -/
theorem held_settle (hGated : ∀ t, s.isFinished t = false → cfg.gated.waits t = true)
    (hNone : ∀ t : TripId, s.trips[t]? ≠ some .released) : (s.settle cfg).held = s.held := by
  obtain ⟨count, hTurns⟩ := turns_eq_play cfg s s.weight
  rw [settle, hTurns]
  clear hTurns
  induction count generalizing s with
  | zero => rfl
  | succ count ih =>
      have hNext : ∀ t : TripId, (s.turn cfg).trips[t]? ≠ some .released :=
        fun t hReleased => hNone t (released_of_turn hReleased)
      rw [List.replicate_succ, play_cons]
      refine (ih (fun t hOpen => hGated t (isFinished_of_move .turn hOpen)) hNext).trans ?_
      rw [held_move, answer?_of_gated hGated hNone]
      rfl

/-- The grant that answers the request in flight once it is released is stored, whoever waits for it. It stays until
all is settled if the requests of later round trips wait for their release as well. -/
theorem held_of_release (h : Sound cfg s) (hReady : s.ready = []) (hSent : s.trips[t]? = some .sent)
    {g : Grant} {expiry : Instant} (hGrant : (takeReply s.replies).1.grant? cfg.nesting = some g)
    (hExpiry : g.expiry? s.clock = some expiry) :
    (s.play cfg [.act .release, .turn]).held = ⟨some g.token, some expiry⟩ ∧
      ((∀ v, s.trips.length ≤ v → cfg.gated.waits v = true) →
        (s.step cfg [.release]).held = ⟨some g.token, some expiry⟩) := by
  obtain ⟨key, hSource⟩ := h.refreshable_of_trip hSent
  have hOnly {u : TripId} (hOpen : s.UnderWay u) : u = t :=
    Option.some.inj ((h.flight.eq_of_underWay hOpen).symm.trans (h.flight.eq_of_underWay ⟨_, hSent, rfl⟩))
  obtain ⟨u, hu, hRelease⟩ := (release_cases s).resolve_left fun hNone => hNone.2 t hSent
  obtain rfl : u = t := hOnly ⟨_, hu, rfl⟩
  have hDue : s.release.ready = [.trip u] := by
    rw [hRelease]
    simp [schedule, setTrip, hReady]
  have hReleased : s.release.trips[u]? = some .released := by
    rw [hRelease]
    exact List.getElem?_set_self (List.getElem?_eq_some_iff.mp hSent).1
  have hAnswer : s.release.answer? cfg .turn = some ⟨s.clock, (takeReply s.replies).1⟩ := by
    have hStore : SameStore s s.release := by
      rw [hRelease]
      exact ⟨rfl, rfl, rfl⟩
    have hTakes : s.release.takesReply cfg u = true := by simp only [takesReply, hSource, hReleased]
    simp only [answer?, hDue, tripAnswer?, hTakes, if_true, hStore.clock, hStore.replies]
  have hLength : s.release.trips.length = s.trips.length := by
    rw [hRelease]
    exact List.length_set
  have hFlight : SingleFlight s.release := h.flight.act .release
  have hOpen : s.release.UnderWay u := ⟨_, hReleased, rfl⟩
  -- the turn that takes the answer leaves no round trip under way
  have hNone {v : TripId} (hv : (s.release.turn cfg).UnderWay v) : s.trips.length ≤ v := by
    by_contra hOld
    have hBound : v < s.release.trips.length := hLength ▸ Nat.not_le.mp hOld
    have hStill : (s.release.play cfg [.turn]).UnderWay v := hv
    have hBefore : s.release.UnderWay v := UnderWay.of_play (List.getElem?_eq_getElem hBound) hStill
    obtain rfl : u = v :=
      Option.some.inj ((hFlight.eq_of_underWay hOpen).symm.trans (hFlight.eq_of_underWay hBefore))
    have hUnanswered := answer?_of_underWay (m := .turn) hFlight hOpen hv
    rw [hAnswer] at hUnanswered
    contradiction
  have hHeld : (s.release.turn cfg).held = ⟨some g.token, some expiry⟩ := by
    rw [← State.move, held_move, hAnswer]
    exact HeldToken.after_of_expiry _ hGrant hExpiry
  refine ⟨hHeld, fun hLater => ?_⟩
  change (s.release.settle cfg).held = _
  rw [settle_turn cfg (by simp [hDue]), held_settle ?_ ?_]
  · exact hHeld
  · intro v hv
    by_cases hBound : v < (s.release.turn cfg).trips.length
    · refine hLater v (hNone ⟨_, List.getElem?_eq_getElem hBound, ?_⟩)
      simpa [isFinished, List.getElem?_eq_getElem hBound] using hv
    · have hKept : (s.release.turn cfg).trips.length = s.release.trips.length :=
        hFlight.trips_length hReleased rfl .turn
      exact hLater v (hLength ▸ hKept ▸ Nat.le_of_not_lt hBound)
  · intro v hv
    have hAgain : s.release.trips[v]? = some .released := released_of_turn hv
    have hBound := (List.getElem?_eq_some_iff.mp hAgain).1
    rw [hLength] at hBound
    exact absurd (hNone ⟨_, hv, rfl⟩) (Nat.not_le.mpr hBound)

/-- Cancelling a caller touches only that caller. Whenever nothing is left to do, cancelling a call that
has not ended, and all that this makes possible, ends that call as cancelled and changes nothing else:
neither the store nor the round trips, the requests or the results of other calls. There is a request in
flight, and whatever comes later, further cancellations included, nothing but its answer ends that round
trip, and a grant that answers it is stored. Once nothing is left to do and the request is released, its
answer is taken in the next turn, and what it stores stays until all is settled if the requests of later round
trips wait for their release as well. -/
theorem cancellation_touches_one_call (cfg : Config) (clock : Instant) (held : HeldToken)
    (replies : List Reply) (moves : List Move) (c : CallId)
    (hReady : ((start clock held replies).play cfg moves).ready = [])
    (hOpen : ((start clock held replies).play cfg moves).Unfinished c) :
    let s := (start clock held replies).play cfg moves
    let s' := s.step cfg [.cancel c]
    s'.ready = [] ∧ OnlyCancelled c s s' ∧ s'.inFlight = s.inFlight ∧
      ∃ t, s'.trips[t]? = some .sent ∧ ∀ later : List Move,
        let u := s'.play cfg later
        (u.Outstanding t ∨ s'.Sometime cfg (fun v m => ∃ a, AnsweredBy cfg v m t a) later) ∧
        (u.ready = [] → u.trips[t]? = some .sent → ∀ g expiry, (takeReply u.replies).1.grant? cfg.nesting = some g →
          g.expiry? u.clock = some expiry →
          (u.play cfg [.act .release, .turn]).held = ⟨some g.token, some expiry⟩ ∧
            ((∀ v, u.trips.length ≤ v → cfg.gated.waits v = true) →
              (u.step cfg [.release]).held = ⟨some g.token, some expiry⟩)) := by
  intro s s'
  have h : Sound cfg s := (Sound.start clock held replies).play moves
  have hOnly : OnlyCancelled c s s' := onlyCancelled_of_unfinished h hReady hOpen
  obtain ⟨d, t, -, -, -, hSent, -⟩ := h.holder_of_unfinished hReady hOpen
  have hSent' : s'.trips[t]? = some .sent := hOnly.trips ▸ hSent
  have h' : Sound cfg s' := h.step [.cancel c]
  refine ⟨step_ready cfg s _, hOnly, by rw [inFlight, hOnly.trips, inFlight], t, hSent', fun later => ?_⟩
  intro u
  refine ⟨Outstanding.play (.inl hSent') cfg later, fun hSettled hStill g expiry hGrant hExpiry => ?_⟩
  exact held_of_release (h'.play later) hSettled hStill hGrant hExpiry

/-- Of two callers the one whose request is in flight is cancelled, and then the other one. The token
that the request brings is stored all the same. -/
theorem cancelled_callers_leave_token :
    let cfg : Config :=
      { source := .refreshable ⟨"R", "id", "s"⟩, url := Grant.defaultUrl, margin := .minute, gated := true }
    let body := (Utf8.encode "\x7b\"access_token\":\"t\",\"expires_in\":3600\x7d").toOption.getD []
    let s := (start ⟨1704110400000000, by decide, by decide⟩ {} [.response { status := 200, body }]).play cfg
      [.act (.call .token), .act (.call .refresh), .turn, .turn, .turn]
    let s' := s.step cfg [.cancel 0]
    let u := s'.play cfg [.act (.cancel 1), .turn]
    s'.result? 0 = some .cancelled ∧ s'.result? 1 = none ∧ u.result? 1 = some .cancelled ∧
      (u.step cfg [.release]).held.token = some ("t" : Text) := by
  intro cfg body s s' u
  have hRun : s.ready = [] ∧ s.result? 0 = none ∧ s.result? 1 = none ∧ s.calls.length = 2 ∧
      s'.trips = [.sent] ∧ u.ready = [] ∧ u.trips = [.sent] ∧ u.clock.micros = 1704110400000000 ∧
      u.result? 1 = some .cancelled := by
    dsimp only [cfg, body, s, s', u]
    decide +kernel
  obtain ⟨hReady, hFirst, hSecond, hLength, hTrips, hSettled, hStill, hClock, hCancelled⟩ := hRun
  have hOpen : s.Unfinished 0 := ⟨by rw [hLength]; decide, hFirst⟩
  have hGrant : ((takeReply u.replies).1.grant? cfg.nesting).map (fun g => (g.token, g.seconds)) =
      some (("t" : Text), 3600) := by
    dsimp only [cfg, body, s, s', u]
    decide +kernel
  obtain ⟨g, hRead, hPair⟩ := Option.map_eq_some_iff.mp hGrant
  obtain ⟨hToken, hSeconds⟩ := Prod.mk.inj hPair
  obtain ⟨-, hOnly, -, t, hSent, hLater⟩ := cancellation_touches_one_call cfg _ _ _
    [.act (.call .token), .act (.call .refresh), .turn, .turn, .turn] 0 hReady hOpen
  obtain rfl : t = 0 := by
    have hBound := (List.getElem?_eq_some_iff.mp hSent).1
    change t < s'.trips.length at hBound
    rw [hTrips] at hBound
    exact Nat.lt_one_iff.mp hBound
  have hExpiry : g.expiry? u.clock = some ⟨1704114000000000, by decide, by decide⟩ := by
    rw [Grant.expiry?, hSeconds, hClock]
    rfl
  have hHeld := ((hLater [.act (.cancel 1), .turn]).2 hSettled (by rw [show u.trips = _ from hStill]; rfl) g _
    hRead hExpiry).2 fun _ _ => rfl
  refine ⟨hOnly.result, (hOnly.others 1 (by decide)).trans hSecond, hCancelled, ?_⟩
  rw [hHeld, hToken]

end Bearer.Cache.State
