import Bearer.Proofs.Cache.Desk
import Bearer.Proofs.Cache.SingleFlight
import Bearer.Proofs.Form

/-! While nobody is cancelled, every turn either goes on with the call at the desk, as a sequential cache does, or is
of no account, and actions mean the same to both. -/

namespace Bearer.Cache.State

variable {cfg : Config} {request : Request} {s : State} {q : Sequential} {done : List (Call × Result)}
  {call : Call} {desk : Desk} {queue fresh : List Call}

variable {key : RefreshKey} {c : CallId} {t : TripId} {o : Outcome}

theorem stepCall_starting (hSource : cfg.source = .refreshable key)
    (hCall : s.calls[c]? = some (.starting call)) : s.stepCall cfg c =
      if s.lock.isOpen then s.enter cfg c call
      else { s with lock := s.lock.join c }.setPhase c .queued := by
  simp only [stepCall, hCall, Caller.starting, startCall, hSource, Bool.false_eq_true, if_false]

theorem stepCall_queued (hCall : s.calls[c]? = some (.queued call)) :
    s.stepCall cfg c = { s with lock := s.lock.leave c }.enter cfg c call := by
  simp only [stepCall, hCall, Caller.queued, resumeQueued, Bool.false_eq_true, if_false]

theorem stepCall_delivered (hCall : s.calls[c]? = some ⟨call, .delivered o, false⟩) :
    s.stepCall cfg c = (s.hand c o).finishHolder c (resultOf c call o) := by
  simp only [stepCall, hCall, Bool.false_eq_true, if_false]

namespace Serves

/-- A call that starts goes to the desk if it is free, and to the end of the queue otherwise. -/
theorem arrival (h : Serves s q done desk queue (call :: fresh)) (hSource : cfg.source = .refreshable key)
    {tasks : List Task} (hTasks : Interleaved (desk.duties done.length)
      (arrivals (done.length + desk.callers.length + queue.length + 1) fresh.length) tasks) :
    let m := done.length + desk.callers.length + queue.length
    ({ s with ready := tasks }.stepCall cfg m).Mirrors q ∨
      ({ s with ready := tasks }.stepCall cfg m).Mirrors (q.serve cfg request) := by
  intro m
  obtain ⟨front, hLength, hFront, hJoined⟩ := layout_fresh done desk.callers call queue fresh
  have hm : front.length = m := hLength
  have hCall : s.calls[m]? = some (.starting call) := by
    rw [h.calls, hFront, ← hm]
    exact getElem?_middle _ _ _
  rw [stepCall_starting (s := { s with ready := tasks }) hSource hCall]
  by_cases hFree : desk = .free
  · subst hFree
    have hQueue := h.queue_of_free rfl
    subst hQueue
    have hOpen : s.lock.isOpen = true := by
      rw [h.lock]
      rfl
    rw [if_pos hOpen]
    refine .inr ?_
    have hDesk : AtDesk { s with ready := tasks } done call [] fresh :=
      ⟨⟨.starting, h.calls⟩, congrArg Lock.waiters h.lock, h.pending, hTasks.eq_of_left_nil, h.finished⟩
    refine hDesk.enter ?_ h.line h.stage ?_ h.trips
    · exact ⟨h.agrees.clock, h.agrees.held, h.agrees.replies, h.agrees.requests⟩
    · exact h.results.trans (List.append_nil _)
  · have hOpen : s.lock.isOpen = false := by
      rw [h.lock]
      exact Desk.isOpen_lock hFree _ _
    rw [if_neg (by simp [hOpen])]
    refine .inl ⟨done, desk, queue ++ [call], fresh, ?_⟩
    have hDeskLength := Desk.length_callers hFree
    exact {
      agrees := ⟨h.agrees.clock, h.agrees.held, h.agrees.replies, h.agrees.requests⟩
      calls := by
        change s.calls.modify m (fun k => { k with phase := .queued }) = _
        rw [h.calls, hFront, ← hm, modify_middle]
        exact hJoined.symm
      lock := by
        change s.lock.join m = _
        rw [h.lock, Desk.join_lock, List.length_append, List.length_singleton, inLine_concat]
        simp only [m, hDeskLength]
      pending := h.pending
      trip := h.trip
      ready := by
        rw [List.length_append, List.length_singleton, ← Nat.add_assoc]
        exact hTasks
      queue_of_free := fun hDesk => absurd hDesk hFree
      line := by simp [h.line]
      stage := h.stage
      results := h.results
      trips := h.trips
      unsent := h.unsent
      finished := h.finished }

/-- The call that was passed the lock has its turn. -/
theorem passed (h : Serves s q done (.passed call) queue fresh) {tasks : List Task}
    (hTasks : Interleaved [] (arrivals (done.length + 1 + queue.length) fresh.length) tasks) :
    ({ s with ready := tasks }.stepCall cfg done.length).Mirrors (q.serve cfg request) := by
  have hCall : s.calls[done.length]? = some (.queued call) := by
    rw [h.calls]
    exact layout_desk done _ _ _
  have hWaiters : (s.lock.leave done.length).waiters = inLine (done.length + 1) queue.length := by
    rw [h.lock]
    simp only [Desk.lock, Lock.leave, List.filter_cons, bne_self_eq_false, Bool.false_eq_true, if_false]
    rw [List.filter_eq_self]
    rintro ⟨c, w⟩ hMem
    obtain ⟨d, hd, hEq⟩ := List.mem_map.mp hMem
    cases hEq
    have hAfter := (List.mem_range'_1.mp hd).1
    exact bne_iff_ne.mpr (Nat.ne_of_gt hAfter)
  have hDesk : AtDesk { s with ready := tasks, lock := s.lock.leave done.length } done call queue fresh :=
    ⟨⟨.queued, h.calls⟩, hWaiters, h.pending, hTasks.eq_of_left_nil, h.finished⟩
  rw [stepCall_queued (s := { s with ready := tasks }) hCall]
  refine hDesk.enter ?_ h.line h.stage ?_ h.trips
  · exact ⟨h.agrees.clock, h.agrees.held, h.agrees.replies, h.agrees.requests⟩
  · exact h.results.trans (List.append_nil _)

/-- The round trip of the call at the desk has its first turn. -/
theorem asking (h : Serves s q done (.asking call t) queue fresh) (hSource : cfg.source = .refreshable key)
    (hRequest : refreshRequest cfg.url key = .ok request) {tasks : List Task}
    (hTasks : Interleaved [] (arrivals (done.length + 1 + queue.length) fresh.length) tasks) :
    ({ s with ready := tasks }.stepTrip cfg t).Mirrors (q.serve cfg request) := by
  have hTrip : s.trips[t]? = some .starting := h.trip t .starting rfl
  have hFirst : Asked { s with ready := tasks } done call t queue fresh :=
    ⟨h.calls, h.lock, h.pending, (List.getElem?_eq_some_iff.mp hTrip).1, hTasks.eq_of_left_nil, h.finished⟩
  have hFirstAgrees : State.Agrees { s with ready := tasks } q :=
    ⟨h.agrees.clock, h.agrees.held, h.agrees.replies, h.agrees.requests⟩
  generalize hNoted : ({ s with ready := tasks }.observe [.note (.started key.clientId)]).observe
    [.request request] = noted
  have hAsked : Asked noted done call t queue fresh :=
    hNoted ▸ (hFirst.observe (by simp)).observe (by simp)
  have hAgrees : noted.Agrees { q with requests := q.requests ++ [request] } :=
    hNoted ▸ (hFirstAgrees.observe (by simp)).requested request
  have hStep : ({ s with ready := tasks } : State).stepTrip cfg t =
      if cfg.gated.waits t then noted.setTrip t .sent else noted.answerTrip cfg key t := by
    unfold stepTrip
    rw [hSource, hTrip]
    dsimp only
    unfold startTrip
    rw [hRequest]
    dsimp only
    rw [hNoted]
  have hServe : q.serve cfg request =
      if cfg.gated.waits t then { q with requests := q.requests ++ [request], stage := .sent }
      else Sequential.take cfg.nesting call (queue ++ fresh) { q with requests := q.requests ++ [request] } := by
    unfold Sequential.serve
    rw [show q.line = call :: (queue ++ fresh) from h.line, show q.stage = .due from h.stage,
      h.unsent t (by simp [Desk.unsent])]
  have hTrips : noted.trips.length = (q.requests ++ [request]).length := by
    rw [← hNoted, List.length_append, List.length_singleton]
    exact h.trips
  rw [hStep, hServe]
  cases cfg.gated.waits t with
  | false => exact hAsked.answerTrip key hAgrees (h.results.trans (List.append_nil _)) hTrips
  | true =>
      refine ⟨done, .sent call t, queue, fresh, ?_⟩
      exact {
        agrees := ⟨hAgrees.clock, hAgrees.held, hAgrees.replies, hAgrees.requests⟩
        calls := hAsked.calls
        lock := hAsked.lock
        pending := hAsked.pending
        trip := fun u trip hTrip => by
          cases hTrip
          exact List.getElem?_set_self hAsked.trip
        ready := hAsked.ready ▸ Interleaved.of_right _
        queue_of_free := by simp
        line := h.line
        stage := rfl
        results := h.results
        trips := List.length_set.trans hTrips
        unsent := by simp [Desk.unsent]
        finished := hAsked.finished }

/-- The answer to the call at the desk may be taken. -/
theorem released (h : Serves s q done (.released call t) queue fresh)
    (hSource : cfg.source = .refreshable key) {tasks : List Task}
    (hTasks : Interleaved [] (arrivals (done.length + 1 + queue.length) fresh.length) tasks) :
    ({ s with ready := tasks }.stepTrip cfg t).Mirrors (q.serve cfg request) := by
  have hTrip : s.trips[t]? = some .released := h.trip t .released rfl
  have hAsked : Asked { s with ready := tasks } done call t queue fresh :=
    ⟨h.calls, h.lock, h.pending, (List.getElem?_eq_some_iff.mp hTrip).1, hTasks.eq_of_left_nil, h.finished⟩
  have hStep : ({ s with ready := tasks } : State).stepTrip cfg t =
      ({ s with ready := tasks } : State).answerTrip cfg key t := by
    unfold stepTrip
    rw [hSource, hTrip]
  have hServe : q.serve cfg request = q.take cfg.nesting call (queue ++ fresh) := by
    unfold Sequential.serve
    rw [show q.line = call :: (queue ++ fresh) from h.line, show q.stage = .released from h.stage]
  rw [hStep, hServe]
  refine hAsked.answerTrip key ?_ (h.results.trans (List.append_nil _)) h.trips
  exact ⟨h.agrees.clock, h.agrees.held, h.agrees.replies, h.agrees.requests⟩

/-- A round trip that has finished is no longer joined. -/
theorem arrived (h : Serves s q done (.arrived call t o) queue fresh) {tasks : List Task}
    (hTasks : Interleaved [.deliver t done.length]
      (arrivals (done.length + 1 + queue.length) fresh.length) tasks) :
    ({ s with ready := tasks }.retire t).Mirrors q := by
  have hPending : ({ s with ready := tasks } : State).pending = some t := h.pending
  unfold State.retire
  rw [if_pos hPending]
  refine ⟨done, .retired call t o, queue, fresh, ?_⟩
  exact {
    agrees := ⟨h.agrees.clock, h.agrees.held, h.agrees.replies, h.agrees.requests⟩
    calls := h.calls
    lock := h.lock
    pending := rfl
    trip := h.trip
    ready := hTasks
    queue_of_free := by simp
    line := h.line
    stage := h.stage
    results := h.results
    trips := h.trips
    unsent := h.unsent
    finished := h.finished }

/-- The outcome of the round trip reaches the call at the desk. -/
theorem retired (h : Serves s q done (.retired call t o) queue fresh) {tasks : List Task}
    (hTasks : Interleaved [] (arrivals (done.length + 1 + queue.length) fresh.length) tasks) :
    ({ s with ready := tasks }.deliver t done.length).Mirrors q := by
  have hCall : s.calls[done.length]? = some ⟨call, .waiting t, false⟩ := by
    rw [h.calls]
    exact layout_desk done _ _ _
  have hTrip : s.trips[t]? = some (.finished o) := h.trip t (.finished o) rfl
  unfold State.deliver
  rw [hCall, hTrip]
  dsimp only
  rw [if_pos rfl]
  refine ⟨done, .delivered call o, queue, fresh, ?_⟩
  exact {
    agrees := ⟨h.agrees.clock, h.agrees.held, h.agrees.replies, h.agrees.requests⟩
    calls := by
      change s.calls.modify done.length (fun k => { k with phase := .delivered o }) = _
      rw [h.calls]
      exact layout_modify_desk done _ _ _ _
    lock := h.lock
    pending := h.pending
    trip := by simp [Desk.trip?]
    ready := hTasks.push_left (.call done.length)
    queue_of_free := by simp
    line := h.line
    stage := h.stage
    results := h.results
    trips := h.trips
    unsent := h.unsent
    finished := h.finished }

/-- The call at the desk takes its outcome and ends. -/
theorem delivered (h : Serves s q done (.delivered call o) queue fresh) {tasks : List Task}
    (hTasks : Interleaved [] (arrivals (done.length + 1 + queue.length) fresh.length) tasks) :
    ({ s with ready := tasks }.stepCall cfg done.length).Mirrors q := by
  have hCall : s.calls[done.length]? = some ⟨call, .delivered o, false⟩ := by
    rw [h.calls]
    exact layout_desk done _ _ _
  have hDesk : AtDesk { s with ready := tasks } done call queue fresh :=
    ⟨⟨.delivered o, h.calls⟩, congrArg Lock.waiters h.lock, h.pending, hTasks.eq_of_left_nil, h.finished⟩
  rw [stepCall_delivered (s := { s with ready := tasks }) hCall]
  refine (hDesk.hand done.length o).finishHolder ?_ h.line h.stage h.results h.trips
  exact ⟨h.agrees.clock, h.agrees.held, h.agrees.replies, h.agrees.requests⟩

/-- A turn goes on with the call at the desk, or is of no account. -/
theorem turn (h : Serves s q done desk queue fresh) (hSource : cfg.source = .refreshable key)
    (hRequest : refreshRequest cfg.url key = .ok request) :
    (s.turn cfg).Mirrors q ∨ (s.turn cfg).Mirrors (q.serve cfg request) := by
  have hReady := h.ready
  unfold State.turn
  split
  · exact .inl ⟨done, desk, queue, fresh, h⟩
  · next task tasks hTasks =>
      rw [hTasks] at hReady
      generalize hDuties : desk.duties done.length = duties at hReady
      generalize hArrivals : arrivals (done.length + desk.callers.length + queue.length) fresh.length =
        first at hReady
      cases hReady with
      | right _ hRest =>
          -- a call starts
          cases fresh with
          | nil => cases hArrivals
          | cons call fresh =>
              rw [List.length_cons, arrivals_succ, List.cons.injEq] at hArrivals
              obtain ⟨rfl, rfl⟩ := hArrivals
              exact h.arrival hSource (hDuties ▸ hRest)
      | left _ hRest =>
          -- the call at the desk is concerned
          rw [← hArrivals] at hRest
          cases desk with
          | free => cases hDuties
          | sent call t => cases hDuties
          | passed call =>
              cases hDuties
              exact .inr (h.passed hRest)
          | asking call t =>
              cases hDuties
              exact .inr (h.asking hSource hRequest hRest)
          | released call t =>
              cases hDuties
              exact .inr (h.released hSource hRest)
          | arrived call t o =>
              cases hDuties
              exact .inl (h.arrived hRest)
          | retired call t o =>
              cases hDuties
              exact .inl (h.retired hRest)
          | delivered call o =>
              cases hDuties
              exact .inl (h.delivered hRest)

/-- A new call is the last one to start. -/
theorem newcomer (h : Serves s q done desk queue fresh) (call : Call) :
    (s.act (.call call)).Mirrors (q.act (.call call)) := by
  have hLength : s.calls.length = done.length + desk.callers.length + queue.length + fresh.length := by
    rw [h.calls, layout]
    simp only [List.length_append, List.length_map]
    omega
  refine ⟨done, desk, queue, fresh ++ [call], ?_⟩
  exact {
    agrees := ⟨h.agrees.clock, h.agrees.held, h.agrees.replies, h.agrees.requests⟩
    calls := by
      change s.calls ++ [Caller.starting call] = _
      rw [h.calls, layout, layout]
      simp
    lock := h.lock
    pending := h.pending
    trip := h.trip
    ready := by
      change Interleaved _ _ (s.ready ++ [.call s.calls.length])
      rw [hLength, List.length_append, List.length_singleton, arrivals_concat]
      exact h.ready.push_right _
    queue_of_free := h.queue_of_free
    line := by simp [Sequential.act, h.line]
    stage := h.stage
    results := h.results
    trips := h.trips
    unsent := h.unsent
    finished := h.finished }

/-- The request that is released is the one of the call at the desk. -/
theorem release (h : Serves s q done desk queue fresh) (hFlight : SingleFlight s) :
    (s.act .release).Mirrors (q.act .release) := by
  change s.release.Mirrors (if q.stage = .sent then { q with stage := .released } else q)
  rcases release_cases s with ⟨hSame, hNone⟩ | ⟨t, hTrip, hRelease⟩
  · have hStage : q.stage ≠ .sent := by
      intro hSent
      rw [h.stage] at hSent
      cases desk with
      | sent call t => exact hNone t (h.trip t .sent rfl)
      | _ => cases hSent
    rw [hSame, if_neg hStage]
    exact ⟨done, desk, queue, fresh, h⟩
  · -- the only round trip under way is the one of the call at the desk
    have hPending : desk.pending = some t :=
      h.pending.symm.trans (hFlight.pending_of_unfinished t .sent hTrip rfl)
    have hDesk (trip : Trip) (hDeskTrip : desk.trip? = some (t, trip)) : trip = .sent :=
      Option.some.inj ((h.trip t trip hDeskTrip).symm.trans hTrip)
    cases desk with
    | free => cases hPending
    | passed call => cases hPending
    | retired call u o => cases hPending
    | delivered call o => cases hPending
    | asking call u => cases hPending; cases hDesk .starting rfl
    | released call u => cases hPending; cases hDesk .released rfl
    | arrived call u o => cases hPending; cases hDesk (.finished o) rfl
    | sent call u =>
        cases hPending
        have hStage : q.stage = .sent := h.stage
        rw [hRelease, if_pos hStage]
        refine ⟨done, .released call t, queue, fresh, ?_⟩
        exact {
          agrees := ⟨h.agrees.clock, h.agrees.held, h.agrees.replies, h.agrees.requests⟩
          calls := h.calls
          lock := h.lock
          pending := h.pending
          trip := fun v trip hDeskTrip => by
            cases hDeskTrip
            exact List.getElem?_set_self (List.getElem?_eq_some_iff.mp hTrip).1
          ready := h.ready.push_left (.trip t)
          queue_of_free := by simp
          line := h.line
          stage := rfl
          results := h.results
          trips := List.length_set.trans h.trips
          unsent := by simp [Desk.unsent]
          finished := h.finished }

/-- Actions that cancel nobody mean the same to both. -/
theorem act (h : Serves s q done desk queue fresh) (hFlight : SingleFlight s) {a : Action}
    (hCalm : (Move.act a).IsCalm) : (s.act a).Mirrors (q.act a) := by
  cases a with
  | call call => exact h.newcomer call
  | cancel c => exact hCalm.elim
  | advance micros =>
      rw [act_advance_eq]
      have hClock : ((Duration.ofMicros? micros).bind s.clock.add?).getD s.clock =
          (q.act (.advance micros)).clock := by
        simp only [Sequential.act, h.agrees.clock]
      exact ⟨done, desk, queue, fresh, ⟨hClock, h.agrees.held, h.agrees.replies, h.agrees.requests⟩,
        h.calls, h.lock, h.pending, h.trip, h.ready, h.queue_of_free, h.line, h.stage, h.results,
        h.trips, h.unsent, h.finished⟩
  | supply replies =>
      exact ⟨done, desk, queue, fresh, ⟨h.agrees.clock, h.agrees.held, rfl, h.agrees.requests⟩,
        h.calls, h.lock, h.pending, h.trip, h.ready, h.queue_of_free, h.line, h.stage, h.results,
        h.trips, h.unsent, h.finished⟩
  | release => exact h.release hFlight
  | rest => exact ⟨done, desk, queue, fresh, h⟩

end Serves

namespace Mirrors

theorem start (clock : Instant) (held : HeldToken) (replies : List Reply) :
    (State.start clock held replies).Mirrors (Sequential.start clock held replies) := by
  refine ⟨[], .free, [], [], ?_⟩
  exact {
    agrees := ⟨rfl, rfl, rfl, rfl⟩
    calls := rfl
    lock := rfl
    pending := rfl
    trip := by simp [Desk.trip?]
    ready := .nil
    queue_of_free := fun _ => rfl
    line := rfl
    stage := rfl
    results := rfl
    trips := rfl
    unsent := by simp [Desk.unsent]
    finished := rfl }

theorem act (h : s.Mirrors q) (hFlight : SingleFlight s) {a : Action} (hCalm : (Move.act a).IsCalm) :
    (s.act a).Mirrors (q.act a) := by
  obtain ⟨done, desk, queue, fresh, h⟩ := h
  exact h.act hFlight hCalm

theorem turn (h : s.Mirrors q) (hSource : cfg.source = .refreshable key)
    (hRequest : refreshRequest cfg.url key = .ok request) :
    (s.turn cfg).Mirrors q ∨ (s.turn cfg).Mirrors (q.serve cfg request) := by
  obtain ⟨done, desk, queue, fresh, h⟩ := h
  exact h.turn hSource hRequest

/-- What a schedule does is what a sequential cache does under the same actions, if it serves calls at
some of the points at which the schedule has turns. -/
theorem play (h : s.Mirrors q) (hFlight : SingleFlight s) (hSource : cfg.source = .refreshable key)
    (hRequest : refreshRequest cfg.url key = .ok request) {moves : List Move}
    (hCalm : ∀ m ∈ moves, m.IsCalm) : ∃ plan : List Move, plan.Sublist moves ∧
      plan.filter Move.isAct = moves.filter Move.isAct ∧
      (s.play cfg moves).Mirrors (q.play cfg request plan) := by
  induction moves generalizing s q with
  | nil => exact ⟨[], .slnil, rfl, h⟩
  | cons m moves ih =>
      have hLater := fun m hm => hCalm m (List.mem_cons_of_mem _ hm)
      have hNext : SingleFlight (s.move cfg m) := hFlight.move m
      cases m with
      | act a =>
          obtain ⟨plan, hSub, hActs, hMirrors⟩ :=
            ih (h.act hFlight (hCalm (.act a) List.mem_cons_self)) hNext hLater
          refine ⟨.act a :: plan, hSub.cons_cons _, ?_, hMirrors⟩
          rw [List.filter_cons_of_pos rfl, List.filter_cons_of_pos rfl, hActs]
      | turn =>
          rcases h.turn hSource hRequest with hSame | hServed
          · obtain ⟨plan, hSub, hActs, hMirrors⟩ := ih hSame hNext hLater
            refine ⟨plan, hSub.cons _, ?_, hMirrors⟩
            rw [List.filter_cons_of_neg (by simp [Move.isAct]), hActs]
          · obtain ⟨plan, hSub, hActs, hMirrors⟩ := ih hServed hNext hLater
            refine ⟨.turn :: plan, hSub.cons_cons _, ?_, hMirrors⟩
            rw [List.filter_cons_of_neg (by simp [Move.isAct]),
              List.filter_cons_of_neg (by simp [Move.isAct]), hActs]

end Mirrors

end Bearer.Cache.State
