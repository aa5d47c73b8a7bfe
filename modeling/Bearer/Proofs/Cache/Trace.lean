import Bearer.Log.Sink
import Bearer.Proofs.Cache.Requests
import Bearer.Proofs.Cache.Sound

/-! The trace of a run grows by turns alone. A turn adds nothing, the end of a call, what a call does that is given
the lock, or what a round trip does in its first step and with its answer. -/

namespace Bearer.Cache

namespace Event

def note? : Event → Option Note
  | note n => some n
  | _ => none

def request? : Event → Option Request
  | request r => some r
  | _ => none

end Event

namespace State

variable {cfg : Config} {s s' : State} {c : CallId} {t : TripId} {k : Caller}

theorem notes_of_trace {events : List Event} (hTrace : s'.trace = s.trace ++ events) :
    s'.notes = s.notes ++ events.filterMap Event.note? := by
  rw [notes, hTrace]
  exact List.filterMap_append

theorem requests_of_trace {events : List Event} (hTrace : s'.trace = s.trace ++ events) :
    s'.requests = s.requests ++ events.filterMap Event.request? := by
  rw [requests, hTrace]
  exact List.filterMap_append

/-- What a round trip tells at its end: some notes, and its outcome. -/
theorem note?_arrived (notes : List Note) (t : TripId) (o : Outcome) :
    (notes.map Event.note ++ [Event.arrived t o]).filterMap Event.note? = notes := by
  rw [List.filterMap_append, List.filterMap_map]
  simp [Function.comp_def, Event.note?]

theorem request?_arrived (notes : List Note) (t : TripId) (o : Outcome) :
    (notes.map Event.note ++ [Event.arrived t o]).filterMap Event.request? = [] := by
  rw [List.filterMap_append, List.filterMap_map]
  simp [Function.comp_def, Event.request?]

/-- The round trip that a call joins which is given the lock. -/
def joinable? (s : State) : Option TripId := s.pending.filter fun t => !s.isFinished t

/-- What a call does that is given the lock, and what it tells after that. -/
inductive Entry (cfg : Config) (s : State) (c : CallId) (call : Call) (s' : State) : List Event → Prop where
  | unknown (hCall : call ≠ .refresh) (hJoin : s.joinable? = none)
      (hFresh : s.held.isFresh? s.clock cfg.margin = none) (hTrips : s'.trips = s.trips)
      (hEnd : s'.phase? c = some (.finished (.failed .outOfRange))) :
      Entry cfg s c call s' [.finished c (.failed .outOfRange)]
  | reused (hCall : call ≠ .refresh) (hJoin : s.joinable? = none)
      (hFresh : s.held.isFresh? s.clock cfg.margin = some true) (hTrips : s'.trips = s.trips)
      (hEnd : s'.phase? c = some (.finished (call.result c (s.held.token.getD [])))) :
      Entry cfg s c call s'
        [.note (.cached s.held.expiresAt), .finished c (call.result c (s.held.token.getD []))]
  | joined (t : TripId) (hJoin : s.joinable? = some t) (hTrips : s'.trips = s.trips)
      (hWaits : s'.phase? c = some (.waiting t)) : Entry cfg s c call s' []
  | began (hJoin : s.joinable? = none)
      (hNeed : call = .refresh ∨ s.held.isFresh? s.clock cfg.margin = some false)
      (hTrips : s'.trips = s.trips ++ [.starting])
      (hWaits : s'.phase? c = some (.waiting s.trips.length)) : Entry cfg s c call s' []

/-- Only the store and the round trips matter. -/
theorem Entry.of_same {first : State} {call : Call} {events : List Event}
    (h : Entry cfg s c call s' events) (hStore : SameStore first s) (hPending : s.pending = first.pending)
    (hTrips : s.trips = first.trips) : Entry cfg first c call s' events := by
  have hJoinable : s.joinable? = first.joinable? := by
    simp only [joinable?, isFinished, hPending, hTrips]
  cases h with
  | unknown hCall hJoin hFresh hSame hEnd =>
      exact .unknown hCall (hJoinable ▸ hJoin) (hStore.held ▸ hStore.clock ▸ hFresh) (hSame.trans hTrips) hEnd
  | reused hCall hJoin hFresh hSame hEnd =>
      rw [hStore.held] at hEnd ⊢
      exact .reused hCall (hJoinable ▸ hJoin) (hStore.held ▸ hStore.clock ▸ hFresh) (hSame.trans hTrips) hEnd
  | joined t hJoin hSame hWaits => exact .joined t (hJoinable ▸ hJoin) (hSame.trans hTrips) hWaits
  | began hJoin hNeed hSame hWaits =>
      rw [hTrips] at hSame hWaits
      exact .began (hJoinable ▸ hJoin) (hStore.held ▸ hStore.clock ▸ hNeed) hSame hWaits

/-- A stored token counts unless a new one is asked for or a round trip can be joined. -/
theorem storedIsFresh?_cases (cfg : Config) (call : Call) (s : State) :
    (call = .refresh ∨ ∃ t, s.pending = some t) ∧ s.storedIsFresh? cfg call = some false ∨
      call ≠ .refresh ∧ s.pending = none ∧
        s.storedIsFresh? cfg call = s.held.isFresh? s.clock cfg.margin := by
  unfold storedIsFresh?
  cases hPending : s.pending with
  | some t => exact .inl ⟨.inr ⟨t, rfl⟩, by cases call <;> rfl⟩
  | none =>
      cases call with
      | refresh => exact .inl ⟨.inl rfl, rfl⟩
      | token => exact .inr ⟨by simp, rfl, rfl⟩
      | sign headers => exact .inr ⟨by simp, rfl, rfl⟩

theorem holder_finishHolder (c : CallId) (r : Result) (s : State) : (s.finishHolder c r).lock.holder = none := by
  change ({ s.lock with holder := none } : Lock).wakeFirst.1.holder = none
  rcases ({ s.lock with holder := none } : Lock).wakeFirst_cases with hNone | ⟨d, rest, -, hSome⟩
  · rw [hNone]
  · rw [hSome]

theorem trace_awaitTrip (c : CallId) (s : State) : (s.awaitTrip c).trace = s.trace := by
  unfold awaitTrip
  split <;> rfl

/-- A call that waits for a round trip joins the pending one, or begins one. -/
theorem awaitTrip_cases (hCall : s.calls[c]? = some k) :
    (∃ t, s.pending = some t ∧ (s.awaitTrip c).trips = s.trips ∧
        (s.awaitTrip c).phase? c = some (.waiting t)) ∨
      s.pending = none ∧ (s.awaitTrip c).trips = s.trips ++ [.starting] ∧
        (s.awaitTrip c).phase? c = some (.waiting s.trips.length) := by
  unfold awaitTrip
  split
  · next t hPending => exact .inl ⟨t, hPending, rfl, phase?_setPhase_self rfl hCall⟩
  · next hPending => exact .inr ⟨hPending, rfl, phase?_setPhase_self rfl hCall⟩

/-- What the call tells that is given the lock. -/
theorem tells_enter (cfg : Config) (call : Call) (hCall : s.calls[c]? = some k) :
    ∃ events, (s.enter cfg c call).trace = s.trace ++ .acquired c :: events ∧
      Entry cfg s c call (s.enter cfg c call) events ∧
      ∀ d, (s.enter cfg c call).lock.holder = some d → d = c := by
  generalize hTaken : ({ s with lock := s.lock.take c }.observe [.acquired c]).dropFinished = taken
  have hSame : taken.trace = s.trace ++ [.acquired c] ∧ taken.calls = s.calls ∧ taken.trips = s.trips ∧
      taken.held = s.held ∧ taken.clock = s.clock ∧ taken.pending = s.joinable? ∧
      taken.lock = s.lock.take c := by
    rw [← hTaken, dropFinished_eq]
    exact ⟨rfl, rfl, rfl, rfl, rfl, rfl, rfl⟩
  obtain ⟨hTrace, hCalls, hTrips, hHeld, hClock, hJoin, hLock⟩ := hSame
  have hCall' : taken.calls[c]? = some k := hCalls ▸ hCall
  have hCases := storedIsFresh?_cases cfg call taken
  rw [hJoin, hHeld, hClock] at hCases
  unfold enter
  rw [hTaken]
  dsimp only
  split
  · next hFresh =>
      rw [hFresh] at hCases
      rcases hCases with ⟨_, hOther⟩ | ⟨hAsked, hNone, hUnknown⟩
      · contradiction
      · refine ⟨[.finished c (.failed .outOfRange)], ?_, .unknown hAsked hNone hUnknown.symm ?_ ?_, ?_⟩
        · change taken.trace ++ _ = _
          rw [hTrace, List.append_assoc]
          rfl
        · exact hTrips
        · exact phase?_setPhase_self rfl hCall'
        · intro d hHolder
          rw [holder_finishHolder] at hHolder
          contradiction
  · next hFresh =>
      rw [hFresh] at hCases
      rcases hCases with ⟨_, hOther⟩ | ⟨hAsked, hNone, hKnown⟩
      · contradiction
      · refine ⟨[.note (.cached s.held.expiresAt), .finished c (call.result c (s.held.token.getD []))], ?_,
          .reused hAsked hNone hKnown.symm ?_ ?_, ?_⟩
        · change (taken.trace ++ _) ++ _ = _
          rw [hTrace, hHeld, List.append_assoc, List.append_assoc]
          rfl
        · exact hTrips
        · rw [← hHeld]
          exact phase?_setPhase_self rfl hCall'
        · intro d hHolder
          rw [holder_finishHolder] at hHolder
          contradiction
  · next hFresh =>
      rw [hFresh] at hCases
      refine ⟨[], (trace_awaitTrip c taken).trans hTrace, ?_, fun d hHolder => ?_⟩
      · rcases awaitTrip_cases hCall' with ⟨t, hPending, hSame, hWaits⟩ | ⟨hNone, hBegun, hWaits⟩
        · exact .joined t (hJoin ▸ hPending) (hSame.trans hTrips) hWaits
        · rw [hJoin] at hNone
          rw [hTrips] at hBegun hWaits
          refine .began hNone ?_ hBegun hWaits
          rcases hCases with ⟨hAsked | ⟨t, hSome⟩, _⟩ | ⟨_, _, hStale⟩
          · exact .inl hAsked
          · rw [hNone] at hSome
            contradiction
          · exact .inr hStale.symm
      · rw [lock_awaitTrip, hLock] at hHolder
        exact (Option.some.inj hHolder).symm

/-- What the step of a call adds to the trace. -/
inductive CallTells (cfg : Config) (s s' : State) : List Event → Prop where
  | nothing (hTrips : s'.trips = s.trips) : CallTells cfg s s' []
  | ended (c : CallId) (r : Result) (hTrips : s'.trips = s.trips) : CallTells cfg s s' [.finished c r]
  | entered (c : CallId) (k : Caller) (events : List Event) (hCall : s.calls[c]? = some k)
      (hPhase : k.phase = .starting ∨ k.phase = .queued) (hEntry : Entry cfg s c k.call s' events) :
      CallTells cfg s s' (.acquired c :: events)

/-- The step of a call begins a round trip, or leaves them as they are. -/
theorem CallTells.trips {events : List Event} (h : CallTells cfg s s' events) :
    s'.trips = s.trips ∨ s'.trips = s.trips ++ [.starting] := by
  cases h with
  | nothing hTrips => exact .inl hTrips
  | ended _ _ hTrips => exact .inl hTrips
  | entered _ _ _ _ _ hEntry =>
      cases hEntry with
      | unknown _ _ _ hTrips _ => exact .inl hTrips
      | reused _ _ _ hTrips _ => exact .inl hTrips
      | joined _ _ hTrips _ => exact .inl hTrips
      | began _ _ hTrips _ => exact .inr hTrips

/-- The step of a call sends no request. -/
theorem CallTells.request? {events : List Event} (h : CallTells cfg s s' events) :
    events.filterMap Event.request? = [] := by
  cases h with
  | nothing _ => rfl
  | ended _ _ _ => rfl
  | entered _ _ _ _ _ hEntry => cases hEntry <;> rfl

/-- Whoever holds the lock has held it before, or is told to have been given it. -/
def HolderTold (s s' : State) (events : List Event) : Prop :=
  ∀ c, s'.lock.holder = some c → s.lock.holder = some c ∨ .acquired c ∈ events

/-- The trace of one state is that of another and what the step of a call adds. -/
def CallContinues (cfg : Config) (s s' : State) : Prop :=
  ∃ events, s'.trace = s.trace ++ events ∧ CallTells cfg s s' events ∧ HolderTold s s' events

theorem callContinues_of_same (hTrace : s'.trace = s.trace) (hTrips : s'.trips = s.trips)
    (hHolder : s'.lock.holder = s.lock.holder) : CallContinues cfg s s' :=
  ⟨[], by simpa using hTrace, .nothing hTrips, fun _ hHolds => .inl (hHolder ▸ hHolds)⟩

theorem callContinues_of_ended {r : Result} (hTrace : s'.trace = s.trace ++ [.finished c r])
    (hTrips : s'.trips = s.trips) (hHolder : s'.lock.holder = none ∨ s'.lock.holder = s.lock.holder) :
    CallContinues cfg s s' := by
  refine ⟨_, hTrace, .ended c r hTrips, fun d hHolds => .inl ?_⟩
  rcases hHolder with hNone | hSame
  · rw [hNone] at hHolds
    contradiction
  · exact hSame ▸ hHolds

theorem callContinues_startCall (cfg : Config) (hCall : s.calls[c]? = some k) (hPhase : k.phase = .starting) :
    CallContinues cfg s (s.startCall cfg c k) := by
  unfold startCall
  split
  · exact callContinues_of_ended rfl rfl (.inr rfl)
  · split
    · exact callContinues_of_ended rfl rfl (.inr rfl)
    · split
      · obtain ⟨events, hTrace, hEntry, hHolder⟩ := tells_enter cfg k.call hCall
        refine ⟨_, hTrace, .entered c k events hCall (.inl hPhase) hEntry, fun d hHolds => .inr ?_⟩
        rw [hHolder d hHolds]
        exact List.mem_cons_self
      · exact callContinues_of_same rfl rfl rfl

theorem callContinues_resumeQueued (cfg : Config) (hCall : s.calls[c]? = some k) (hPhase : k.phase = .queued) :
    CallContinues cfg s (s.resumeQueued cfg c k) := by
  unfold resumeQueued
  dsimp only
  split
  · split
    · refine callContinues_of_ended rfl rfl (.inr ?_)
      rcases (s.lock.leave c).wakeFirst_cases with hNone | ⟨d, rest, -, hSome⟩
      · exact congrArg (fun l => l.1.holder) hNone
      · exact congrArg (fun l => l.1.holder) hSome
    · exact callContinues_of_ended rfl rfl (.inr rfl)
  · obtain ⟨events, hTrace, hEntry, hHolder⟩ :=
      tells_enter (s := { s with lock := s.lock.leave c }) cfg k.call hCall
    refine ⟨_, hTrace, .entered c k events hCall (.inr hPhase) (hEntry.of_same ⟨rfl, rfl, rfl⟩ rfl rfl),
      fun d hHolds => .inr ?_⟩
    rw [hHolder d hHolds]
    exact List.mem_cons_self

/-- What the step of a call tells. -/
theorem callContinues_stepCall (cfg : Config) (c : CallId) (s : State) :
    CallContinues cfg s (s.stepCall cfg c) := by
  unfold stepCall
  split
  · exact callContinues_of_same rfl rfl rfl
  · next k hCall =>
      split
      · next hPhase => exact callContinues_startCall cfg hCall hPhase
      · next hPhase => exact callContinues_resumeQueued cfg hCall hPhase
      · split
        · exact callContinues_of_ended rfl rfl (.inl (holder_finishHolder c _ s))
        · exact callContinues_of_same rfl rfl rfl
      · exact callContinues_of_ended rfl rfl (.inl (holder_finishHolder c _ (s.hand c _)))
      · exact callContinues_of_same rfl rfl rfl

/-- The tasks that are left play no part in it. -/
theorem CallTells.of_pop (rest : List Task) {events : List Event}
    (h : CallTells cfg { s with ready := rest } s' events) : CallTells cfg s s' events := by
  cases h with
  | nothing hTrips => exact .nothing hTrips
  | ended c r hTrips => exact .ended c r hTrips
  | entered c k events hCall hPhase hEntry =>
      exact .entered c k events hCall hPhase (hEntry.of_same ⟨rfl, rfl, rfl⟩ rfl rfl)

/-- What a turn adds to the trace, and what it does to the round trips. -/
inductive Tells (cfg : Config) (s s' : State) : List Event → Prop where
  | call (events : List Event) (hCall : CallTells cfg s s' events) : Tells cfg s s' events
  | sent (t : TripId) (key : RefreshKey) (request : Request) (hSource : cfg.source = .refreshable key)
      (hRequest : refreshRequest cfg.url key = .ok request) (hOld : s.trips[t]? = some .starting)
      (hTrips : s'.trips = s.trips.set t .sent) :
      Tells cfg s s' [.note (.started key.clientId), .request request]
  | refused (t : TripId) (key : RefreshKey) (fault : EncodeFault) (hSource : cfg.source = .refreshable key)
      (hRequest : refreshRequest cfg.url key = .error fault) (hOld : s.trips[t]? = some .starting)
      (hTrips : s'.trips = s.trips.set t (.finished (.failed (.notEncodable fault)))) :
      Tells cfg s s' [.note (.started key.clientId), .arrived t (.failed (.notEncodable fault))]
  /-- The answer comes at once, in the first step of the round trip. -/
  | answeredAtOnce (t : TripId) (key : RefreshKey) (request : Request) (answer : Answer)
      (hSource : cfg.source = .refreshable key) (hRequest : refreshRequest cfg.url key = .ok request)
      (hOld : s.trips[t]? = some .starting) (hAnswer : s.answer? cfg .turn = some answer)
      (hTrips : s'.trips = s.trips.set t
        (.finished (settlement cfg.nesting cfg.margin key answer.now s.held answer.reply).outcome)) :
      Tells cfg s s' ([.note (.started key.clientId), .request request] ++
        ((settlement cfg.nesting cfg.margin key answer.now s.held answer.reply).notes.map .note ++
          [.arrived t (settlement cfg.nesting cfg.margin key answer.now s.held answer.reply).outcome]))
  | answered (t : TripId) (key : RefreshKey) (answer : Answer) (hSource : cfg.source = .refreshable key)
      (hOld : s.trips[t]? = some .released) (hAnswer : s.answer? cfg .turn = some answer)
      (hTrips : s'.trips = s.trips.set t
        (.finished (settlement cfg.nesting cfg.margin key answer.now s.held answer.reply).outcome)) :
      Tells cfg s s' ((settlement cfg.nesting cfg.margin key answer.now s.held answer.reply).notes.map .note ++
        [.arrived t (settlement cfg.nesting cfg.margin key answer.now s.held answer.reply).outcome])

/-- The trace of one state is that of another, and what `Tells` says. -/
def Continues (cfg : Config) (s s' : State) : Prop :=
  ∃ events, s'.trace = s.trace ++ events ∧ Tells cfg s s' events ∧ HolderTold s s' events

theorem holderTold_of_lock (hLock : s'.lock = s.lock) (events : List Event) : HolderTold s s' events :=
  fun _ hHolds => .inl (hLock ▸ hHolds)

theorem continues_of_same (hTrace : s'.trace = s.trace) (hTrips : s'.trips = s.trips)
    (hLock : s'.lock = s.lock) : Continues cfg s s' :=
  ⟨[], by simpa using hTrace, .call [] (.nothing hTrips), holderTold_of_lock hLock []⟩

theorem trace_answerTrip (cfg : Config) (key : RefreshKey) (t : TripId) (s : State) :
    let result := settlement cfg.nesting cfg.margin key s.clock s.held (takeReply s.replies).1
    (s.answerTrip cfg key t).trace = s.trace ++ (result.notes.map .note ++ [.arrived t result.outcome]) :=
  List.append_assoc _ _ _

/-- What the step of a round trip tells, whatever tasks are left. -/
theorem tells_stepTrip (cfg : Config) {rest : List Task} (hReady : s.ready = .trip t :: rest) :
    ∃ events, ({ s with ready := rest }.stepTrip cfg t).trace = s.trace ++ events ∧
      Tells cfg s ({ s with ready := rest }.stepTrip cfg t) events := by
  have hAnswer (hTakes : s.takesReply cfg t = true) :
      s.answer? cfg .turn = some ⟨s.clock, (takeReply s.replies).1⟩ := by
    simp only [answer?, hReady, tripAnswer?, hTakes, if_true]
  unfold stepTrip
  split
  · next key hSource hOld =>
      unfold startTrip
      split
      · next fault hRequest =>
          refine ⟨_, ?_, .refused t key fault hSource hRequest hOld rfl⟩
          exact List.append_assoc _ _ _
      · next request hRequest =>
          split
          · refine ⟨_, ?_, .sent t key request hSource hRequest hOld rfl⟩
            exact List.append_assoc _ _ _
          · next hGated =>
              have hOld' : s.trips[t]? = some .starting := hOld
              have hTakes : s.takesReply cfg t = true := by
                simp only [takesReply, hSource, hOld', hRequest, hGated, Except.isOk, Except.toBool,
                  Bool.not_false, Bool.and_true]
              refine ⟨_, ?_, .answeredAtOnce t key request _ hSource hRequest hOld' (hAnswer hTakes) rfl⟩
              refine (trace_answerTrip cfg key t _).trans ?_
              change ((s.trace ++ [_]) ++ [_]) ++ _ = _
              rw [List.append_assoc s.trace, List.append_assoc s.trace]
              rfl
  · next key hSource hOld =>
      have hOld' : s.trips[t]? = some .released := hOld
      have hTakes : s.takesReply cfg t = true := by simp only [takesReply, hSource, hOld']
      exact ⟨_, trace_answerTrip cfg key t _, .answered t key _ hSource hOld' (hAnswer hTakes) rfl⟩
  · exact ⟨[], (List.append_nil s.trace).symm, .call [] (.nothing rfl)⟩

/-- What one turn tells. -/
theorem continues_turn (cfg : Config) (s : State) : Continues cfg s (s.turn cfg) := by
  unfold turn
  split
  · exact continues_of_same rfl rfl rfl
  · next task rest hReady =>
      cases task with
      | call c =>
          obtain ⟨events, hTrace, hTells, hHolder⟩ := callContinues_stepCall cfg c { s with ready := rest }
          exact ⟨events, hTrace, .call events (hTells.of_pop rest), hHolder⟩
      | trip t =>
          obtain ⟨events, hTrace, hTells⟩ := tells_stepTrip cfg hReady
          exact ⟨events, hTrace, hTells, holderTold_of_lock (lock_stepTrip cfg t _) events⟩
      | retire t =>
          rw [perform, retire]
          split <;> exact continues_of_same rfl rfl rfl
      | deliver t c =>
          rw [perform, deliver]
          split
          · split <;> exact continues_of_same rfl rfl rfl
          · exact continues_of_same rfl rfl rfl

/-- What comes from outside tells nothing. -/
theorem trace_act (s : State) (a : Action) : (s.act a).trace = s.trace := by
  cases a with
  | call call => rfl
  | cancel d => exact trace_cancel d s
  | advance micros =>
      obtain ⟨clock, hAct⟩ := act_advance s micros
      rw [hAct]
  | supply replies => rfl
  | release =>
      rw [act, release]
      split <;> rfl
  | rest => rfl

/-- What the log of a run holds after a sink has taken what it accepts. Records are stamped with the time at
which they are made. -/
def records (sink : Log.Sink) (stamp : Nat → Instant) (s : State) : List Log.Record :=
  (s.notes.filter fun n => sink.accepts (.level n.level)).mapIdx fun i n => n.record (stamp i)

end State

end Bearer.Cache
