import Bearer.Proofs.Cache.Schedule
import Mathlib.Data.List.Basic

/-! A guise shows calls, results, tokens and keys in another form and leaves alone what decides how a run goes on: who
holds the lock, which round trips are under way, what is scheduled. -/

namespace Bearer.Cache

theorem Outcome.sign_token (c : CallId) (token : Text) (mappings : List Mapping) :
    (Outcome.token token).sign c mappings = mappings.map fun m => if m.owner = c then m.sign token else m := rfl

/-- Another form of what a run deals with. Whether a call asks for a new token can still be told, a result is
shown as the one that the call in its other form would have, and failures are shown as they are. A mapping is
shown signed once it is signed, or not at all. -/
structure Guise where
  call : Call → Call
  result : Result → Result
  mapping : Mapping → Option Mapping
  token : Text → Text
  key : RefreshKey → RefreshKey
  request : Request → Request
  replies : List Reply → List Reply
  refresh_iff : ∀ c, call c = .refresh ↔ c = .refresh
  result_token : ∀ c asked t, result (asked.result c t) = (call asked).result c (token t)
  mapping_owner : ∀ m shown, mapping m = some shown → shown.owner = m.owner
  mapping_sign : ∀ m t, mapping (m.sign t) = (mapping m).map (·.sign (token t))
  mappings_call : ∀ c asked, (asked.mappings c).filterMap mapping = (call asked).mappings c
  result_failed : ∀ e, result (.failed e) = .failed e
  result_cancelled : result .cancelled = .cancelled
  token_nil : token [] = []

namespace Guise

variable (φ : Guise)

def outcome : Outcome → Outcome
  | .token t => .token (φ.token t)
  | .failed e => .failed e
  | .cancelled => .cancelled

def phase : Phase → Phase
  | .starting => .starting
  | .queued => .queued
  | .waiting t => .waiting t
  | .delivered o => .delivered (φ.outcome o)
  | .finished r => .finished (φ.result r)

def caller (k : Caller) : Caller := { k with call := φ.call k.call, phase := φ.phase k.phase }

def trip : Trip → Trip
  | .starting => .starting
  | .sent => .sent
  | .released => .released
  | .finished o => .finished (φ.outcome o)

def event : Event → Event
  | .note n => .note n
  | .request r => .request (φ.request r)
  | .acquired c => .acquired c
  | .arrived t o => .arrived t (φ.outcome o)
  | .finished c r => .finished c (φ.result r)

def held (h : HeldToken) : HeldToken := { h with token := h.token.map φ.token }

def source : Source → Source
  | .fixed t => .fixed (φ.token t)
  | .refreshable key => .refreshable (φ.key key)

def config (cfg : Config) : Config := { cfg with source := φ.source cfg.source }

def action : Action → Action
  | .call call => .call (φ.call call)
  | .supply replies => .supply (φ.replies replies)
  | a => a

def state (s : State) : State :=
  { s with
    held := φ.held s.held
    replies := φ.replies s.replies
    calls := s.calls.map φ.caller
    trips := s.trips.map φ.trip
    trace := s.trace.map φ.event
    mappings := s.mappings.filterMap φ.mapping }

@[simp] theorem isFinished_trip (trip : Trip) : (φ.trip trip).isFinished = trip.isFinished := by cases trip <;> rfl

@[simp] theorem isSent_trip (trip : Trip) : (φ.trip trip).isSent = trip.isSent := by cases trip <;> rfl

@[simp] theorem weight_trip (trip : Trip) : (φ.trip trip).weight = trip.weight := by cases trip <;> rfl

@[simp] theorem weight_phase (p : Phase) : (φ.phase p).weight = p.weight := by cases p <;> rfl

theorem isFresh?_held (h : HeldToken) (now : Instant) (margin : Duration) :
    (φ.held h).isFresh? now margin = h.isFresh? now margin := by
  obtain ⟨token, expiresAt⟩ := h
  cases token with
  | none => rfl
  | some token => cases expiresAt <;> rfl

theorem result_resultOf (c : CallId) (call : Call) (o : Outcome) :
    φ.result (State.resultOf c call o) = State.resultOf c (φ.call call) (φ.outcome o) := by
  cases o with
  | token t => exact φ.result_token c call t
  | failed e => exact φ.result_failed e
  | cancelled => exact φ.result_cancelled

variable (cfg : Config) (c : CallId) (t : TripId)

theorem map_modify {α β : Type} (f : α → β) (g : α → α) (g' : β → β)
    (hCommute : ∀ x, f (g x) = g' (f x)) (xs : List α) (i : Nat) : (xs.modify i g).map f = (xs.map f).modify i g' := by
  refine List.ext_getElem? fun j => ?_
  rw [List.getElem?_map, List.getElem?_modify, List.getElem?_modify, List.getElem?_map]
  cases xs[j]? with
  | none => rfl
  | some x =>
      by_cases hij : i = j
      · simp [hij, hCommute]
      · simp [hij]

theorem state_schedule (tasks : List Task) (s : State) :
    φ.state (s.schedule tasks) = (φ.state s).schedule tasks := rfl

theorem state_observe (events : List Event) (s : State) :
    φ.state (s.observe events) = (φ.state s).observe (events.map φ.event) := by
  simp [State.observe, state]

theorem state_setPhase (p : Phase) (s : State) :
    φ.state (s.setPhase c p) = (φ.state s).setPhase c (φ.phase p) := by
  simp only [State.setPhase, state]
  rw [map_modify φ.caller _ (fun k => { k with phase := φ.phase p }) fun k => rfl]

theorem state_setTrip (trip : Trip) (s : State) :
    φ.state (s.setTrip t trip) = (φ.state s).setTrip t (φ.trip trip) := by
  simp only [State.setTrip, state, List.map_set]

theorem filterMap_sign (o : Outcome) (mappings : List Mapping) :
    (o.sign c mappings).filterMap φ.mapping = (φ.outcome o).sign c (mappings.filterMap φ.mapping) := by
  cases o with
  | failed e => rfl
  | cancelled => rfl
  | token token =>
      simp only [outcome, Outcome.sign_token, List.filterMap_map, List.map_filterMap]
      congr 1
      funext m
      by_cases hOwner : m.owner = c
      · rw [Function.comp_apply, if_pos hOwner, mapping_sign]
        refine Option.map_congr fun shown hShown => ?_
        rw [if_pos ((φ.mapping_owner m shown hShown).trans hOwner)]
      · rw [Function.comp_apply, if_neg hOwner]
        refine (Option.map_id' (x := φ.mapping m)).symm.trans (Option.map_congr fun shown hShown => ?_)
        rw [if_neg (fun hSame => hOwner ((φ.mapping_owner m shown hShown).symm.trans hSame))]

theorem state_hand (o : Outcome) (s : State) : φ.state (s.hand c o) = (φ.state s).hand c (φ.outcome o) := by
  simp only [State.hand, state, filterMap_sign]

theorem state_withLock (l : Lock × Option CallId) (s : State) :
    φ.state (s.withLock l) = (φ.state s).withLock l := rfl

theorem state_finish (r : Result) (s : State) : φ.state (s.finish c r) = (φ.state s).finish c (φ.result r) := by
  rw [State.finish, state_observe, state_setPhase]
  rfl

theorem state_finishHolder (r : Result) (s : State) :
    φ.state (s.finishHolder c r) = (φ.state s).finishHolder c (φ.result r) := by
  rw [State.finishHolder, state_finish, state_withLock]
  rfl

@[simp] theorem isFinished_state (s : State) : (φ.state s).isFinished t = s.isFinished t := by
  simp only [State.isFinished, state, List.getElem?_map, Option.map_map, Function.comp_def, isFinished_trip]

theorem state_dropFinished (s : State) : φ.state s.dropFinished = (φ.state s).dropFinished := by
  rw [State.dropFinished_eq, State.dropFinished_eq]
  simp only [isFinished_state]
  rfl

theorem state_awaitTrip (s : State) : φ.state (s.awaitTrip c) = (φ.state s).awaitTrip c := by
  have hPending : (φ.state s).pending = s.pending := rfl
  rw [State.awaitTrip, State.awaitTrip, hPending]
  cases s.pending with
  | some t => exact φ.state_setPhase c _ s
  | none =>
      rw [state_setPhase, state_schedule]
      simp [state, State.setPhase, State.schedule, trip, phase]

theorem storedIsFresh?_state (call : Call) (s : State) :
    (φ.state s).storedIsFresh? (φ.config cfg) (φ.call call) = s.storedIsFresh? cfg call := by
  have hFresh : (φ.state s).held.isFresh? (φ.state s).clock (φ.config cfg).margin =
      s.held.isFresh? s.clock cfg.margin := φ.isFresh?_held s.held s.clock cfg.margin
  have hPending : (φ.state s).pending = s.pending := rfl
  have hRefresh := φ.refresh_iff call
  unfold State.storedIsFresh?
  rw [hPending]
  cases s.pending with
  | some t => cases call <;> cases φ.call _ <;> rfl
  | none =>
      by_cases hCall : call = .refresh
      · rw [hCall, (φ.refresh_iff .refresh).mpr rfl]
      · cases call with
        | refresh => contradiction
        | token => cases hShown : φ.call .token <;> first | exact hFresh | simp [hShown] at hRefresh
        | sign headers => cases hShown : φ.call (.sign headers) <;> first | exact hFresh | simp [hShown] at hRefresh

theorem state_enter (call : Call) (s : State) :
    φ.state (s.enter cfg c call) = (φ.state s).enter (φ.config cfg) c (φ.call call) := by
  have hTaken : φ.state ({ s with lock := s.lock.take c }.observe [.acquired c]).dropFinished =
      ({ φ.state s with lock := s.lock.take c }.observe [.acquired c]).dropFinished := by
    rw [state_dropFinished, state_observe]
    rfl
  unfold State.enter
  dsimp only
  rw [show (φ.state s).lock = s.lock from rfl, ← hTaken, storedIsFresh?_state]
  generalize ({ s with lock := s.lock.take c }.observe [.acquired c]).dropFinished = taken
  cases taken.storedIsFresh? cfg call with
  | none => rw [state_finishHolder, result_failed]
  | some fresh =>
      cases fresh with
      | false => exact φ.state_awaitTrip c taken
      | true =>
          have hToken : φ.token (taken.held.token.getD []) = (φ.state taken).held.token.getD [] := by
            cases hHeld : taken.held.token <;> simp [state, held, hHeld, token_nil]
          rw [state_finishHolder, state_hand, state_observe, result_token, outcome, hToken]
          rfl

theorem state_startCall (k : Caller) (s : State) :
    φ.state (s.startCall cfg c k) = (φ.state s).startCall (φ.config cfg) c (φ.caller k) := by
  unfold State.startCall
  change _ = if k.cancelRequested then _ else _
  by_cases hCancel : k.cancelRequested = true
  · rw [if_pos hCancel, if_pos hCancel, state_finish, result_cancelled]
  · rw [if_neg hCancel, if_neg hCancel]
    cases hSource : cfg.source with
    | fixed token =>
        simp only [config, hSource, source]
        rw [state_finish, state_hand, result_token]
        rfl
    | refreshable key =>
        simp only [config, hSource, source]
        change _ = if s.lock.isOpen then _ else _
        split
        · rw [state_enter, config, hSource]
          rfl
        · rw [state_setPhase]
          rfl

theorem state_resumeQueued (k : Caller) (s : State) :
    φ.state (s.resumeQueued cfg c k) = (φ.state s).resumeQueued (φ.config cfg) c (φ.caller k) := by
  unfold State.resumeQueued
  change _ = if k.cancelRequested then _ else _
  by_cases hCancel : k.cancelRequested = true
  · rw [if_pos hCancel, if_pos hCancel, state_finish, result_cancelled]
    congr 1
    change _ = if (s.lock.leave c).holder.isNone then _ else _
    split <;> rfl
  · rw [if_neg hCancel, if_neg hCancel, state_enter]
    rfl

theorem calls_state (s : State) : (φ.state s).calls[c]? = (s.calls[c]?).map φ.caller := List.getElem?_map

theorem trips_state (s : State) : (φ.state s).trips[t]? = (s.trips[t]?).map φ.trip := List.getElem?_map

theorem state_stepCall (s : State) : φ.state (s.stepCall cfg c) = (φ.state s).stepCall (φ.config cfg) c := by
  unfold State.stepCall
  rw [calls_state]
  cases s.calls[c]? with
  | none => rfl
  | some k =>
      obtain ⟨call, phase, cancelRequested⟩ := k
      cases phase with
      | starting => exact φ.state_startCall cfg c _ s
      | queued => exact φ.state_resumeQueued cfg c _ s
      | waiting t =>
          cases cancelRequested with
          | false => rfl
          | true => exact (φ.state_finishHolder c .cancelled s).trans (by rw [result_cancelled]; rfl)
      | delivered o =>
          refine (φ.state_finishHolder c _ _).trans ?_
          rw [state_hand, result_resultOf]
          cases cancelRequested <;> rfl
      | finished r => rfl

theorem state_retire (s : State) : φ.state (s.retire t) = (φ.state s).retire t := by
  unfold State.retire
  change _ = if s.pending = some t then _ else _
  split <;> rfl

theorem state_deliver (s : State) : φ.state (s.deliver t c) = (φ.state s).deliver t c := by
  unfold State.deliver
  rw [calls_state, trips_state]
  cases s.calls[c]? with
  | none => rfl
  | some k =>
      obtain ⟨call, phase, cancelRequested⟩ := k
      cases s.trips[t]? with
      | none => cases phase <;> cases cancelRequested <;> rfl
      | some trip =>
          cases phase with
          | waiting u =>
              cases cancelRequested with
              | true => cases trip <;> rfl
              | false =>
                  cases trip with
                  | finished o =>
                      dsimp only [Option.map_some, caller, Guise.phase, Guise.trip]
                      split
                      · rw [state_schedule, state_setPhase]
                        rfl
                      · rfl
                  | _ => rfl
          | _ => rfl

theorem listener?_state (s : State) : (φ.state s).listener? t = s.listener? t := by
  unfold State.listener?
  change s.lock.holder.filter _ = s.lock.holder.filter _
  congr 1
  funext c
  rw [calls_state]
  cases s.calls[c]? with
  | none => rfl
  | some k =>
      obtain ⟨call, phase, cancelRequested⟩ := k
      cases phase <;> cases cancelRequested <;> rfl

theorem state_finishTrip (o : Outcome) (s : State) :
    φ.state (s.finishTrip t o) = (φ.state s).finishTrip t (φ.outcome o) := by
  unfold State.finishTrip
  rw [state_schedule, state_observe, state_setTrip, listener?_state]
  rfl

theorem state_cancel (s : State) : φ.state (s.cancel c) = (φ.state s).cancel c := by
  have hCalls : (s.calls.modify c fun k => { k with cancelRequested := true }).map φ.caller =
      (s.calls.map φ.caller).modify c fun k => { k with cancelRequested := true } :=
    map_modify φ.caller (fun k => { k with cancelRequested := true })
      (fun k => { k with cancelRequested := true }) (fun _ => rfl) s.calls c
  unfold State.cancel
  rw [calls_state]
  cases s.calls[c]? with
  | none => rfl
  | some k =>
      obtain ⟨call, phase, cancelRequested⟩ := k
      cases phase with
      | queued =>
          dsimp only [Option.map_some, caller, Guise.phase]
          change _ = if s.lock.isWaiting c then _ else _
          split <;> simp only [state, State.schedule, hCalls]
      | waiting t =>
          dsimp only [Option.map_some, caller, Guise.phase]
          split <;> simp only [state, State.schedule, hCalls]
      | starting => simp only [Option.map_some, caller, Guise.phase, state, hCalls]
      | delivered o => simp only [Option.map_some, caller, Guise.phase, state, hCalls]
      | finished r => rfl

theorem state_release (s : State) : φ.state s.release = (φ.state s).release := by
  have hFind : (φ.state s).trips.findIdx? (·.isSent) = s.trips.findIdx? (·.isSent) := by
    simp only [state, List.findIdx?_map, Function.comp_def, isSent_trip]
  unfold State.release
  rw [hFind]
  cases s.trips.findIdx? (·.isSent) with
  | none => rfl
  | some t =>
      rw [state_schedule, state_setTrip]
      rfl

/-- What comes from outside does to the state in a guise what it does to the state. -/
theorem state_act (a : Action) (s : State) : φ.state (s.act a) = (φ.state s).act (φ.action a) := by
  cases a with
  | call call => simp [State.act, state, State.schedule, caller, phase, action, mappings_call]
  | cancel c => exact φ.state_cancel c s
  | advance micros =>
      rw [action, State.act_advance_eq, State.act_advance_eq]
      · rfl
      · simp
      · simp
  | supply replies => rfl
  | release => exact φ.state_release s
  | rest => rfl

theorem weight_state (s : State) : (φ.state s).weight = s.weight := by
  simp [State.weight, state, List.foldr_map, caller]

theorem notes_state (s : State) : (φ.state s).notes = s.notes := by
  simp only [State.notes, state, List.filterMap_map]
  congr 1
  funext e
  cases e <;> rfl

theorem requests_state (s : State) : (φ.state s).requests = s.requests.map φ.request := by
  simp only [State.requests, state, List.filterMap_map, List.map_filterMap]
  congr 1
  funext e
  cases e <;> rfl

theorem result?_state (s : State) : (φ.state s).result? c = (s.result? c).map φ.result := by
  simp only [State.result?, State.phase?, calls_state]
  cases s.calls[c]? with
  | none => rfl
  | some k =>
      obtain ⟨call, phase, cancelRequested⟩ := k
      cases phase <;> rfl

end Guise

end Bearer.Cache
