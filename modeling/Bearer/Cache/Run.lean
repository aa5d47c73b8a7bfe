import Bearer.Cache.State

/-! `State.turn` performs the task at the head of the queue, `State.settle` tasks until none is left. A step performs
some actions from outside without letting any task go on in between, and then settles. -/

namespace Bearer.Cache

namespace State

def phase? (s : State) (c : CallId) : Option Phase := (s.calls[c]?).map (·.phase)

/-- The result of a call that has ended. -/
def result? (s : State) (c : CallId) : Option Result :=
  match s.phase? c with
  | some (.finished r) => some r
  | _ => none

/-- The requests that wait for their answer. -/
def inFlight (s : State) : Nat := s.trips.countP (·.isSent)

/-- What the mapping holds that a call was given to sign. -/
def fields? (s : State) (c : CallId) : Option Headers :=
  (s.mappings.find? (·.owner == c)).map (·.fields)

/-- Whether a round trip has finished. -/
def isFinished (s : State) (t : TripId) : Bool := ((s.trips[t]?).map (·.isFinished)).getD false

def schedule (tasks : List Task) (s : State) : State := { s with ready := s.ready ++ tasks }

def observe (events : List Event) (s : State) : State := { s with trace := s.trace ++ events }

def setPhase (c : CallId) (p : Phase) (s : State) : State :=
  { s with calls := s.calls.modify c fun caller => { caller with phase := p } }

def setTrip (t : TripId) (trip : Trip) (s : State) : State :=
  { s with trips := s.trips.set t trip }

/-- Hands an outcome to a call. -/
def hand (c : CallId) (o : Outcome) (s : State) : State := { s with mappings := o.sign c s.mappings }

/-- Puts a lock in place together with the wakeup it calls for. -/
def withLock (l : Lock × Option CallId) (s : State) : State :=
  schedule (l.2.toList.map .call) { s with lock := l.1 }

/-- Ends a call. -/
def finish (c : CallId) (r : Result) (s : State) : State :=
  (s.setPhase c (.finished r)).observe [.finished c r]

/-- Ends the call that holds the lock, which goes to the next. -/
def finishHolder (c : CallId) (r : Result) (s : State) : State :=
  (s.withLock s.lock.release).finish c r

/-- Lets a finished round trip no longer be joined. -/
def dropFinished (s : State) : State :=
  match s.pending with
  | some t => if s.isFinished t then { s with pending := none } else s
  | none => s

/-- Lets the holder wait for the round trip under way, or for a new one. -/
def awaitTrip (c : CallId) (s : State) : State :=
  match s.pending with
  | some t => s.setPhase c (.waiting t)
  | none =>
    let t := s.trips.length
    ({ s with trips := s.trips ++ [Trip.starting], pending := some t }.schedule [.trip t]).setPhase c
      (.waiting t)

/-- The freshness of the stored token, which counts only while no round trip can be joined and no
new token is asked for. -/
def storedIsFresh? (cfg : Config) (call : Call) (s : State) : Option Bool :=
  match call, s.pending with
  | .refresh, _ | _, some _ => some false
  | _, none => s.held.isFresh? s.clock cfg.margin

/-- What the call that has just been given the lock does. -/
def enter (cfg : Config) (c : CallId) (call : Call) (s : State) : State :=
  let s := ({ s with lock := s.lock.take c }.observe [.acquired c]).dropFinished
  match s.storedIsFresh? cfg call with
  | none => s.finishHolder c (.failed .outOfRange)
  | some true =>
    let token := s.held.token.getD []
    ((s.observe [.note (.cached s.held.expiresAt)]).hand c (.token token)).finishHolder c (call.result c token)
  | some false => s.awaitTrip c

/-- The first step of a call. -/
def startCall (cfg : Config) (c : CallId) (caller : Caller) (s : State) : State :=
  if caller.cancelRequested then s.finish c .cancelled
  else match cfg.source with
    | .fixed token => (s.hand c (.token token)).finish c (caller.call.result c token)
    | .refreshable _ =>
      if s.lock.isOpen then s.enter cfg c caller.call
      else { s with lock := s.lock.join c }.setPhase c .queued

/-- The step of a call that was passed the lock or gave up waiting for it. -/
def resumeQueued (cfg : Config) (c : CallId) (caller : Caller) (s : State) : State :=
  let s := { s with lock := s.lock.leave c }
  if caller.cancelRequested then
    (if s.lock.holder.isNone then s.withLock s.lock.wakeFirst else s).finish c .cancelled
  else s.enter cfg c caller.call

/-- The result that an outcome gives to a call. -/
def resultOf (c : CallId) (call : Call) : Outcome → Result
  | .token t => call.result c t
  | .failed e => .failed e
  | .cancelled => .cancelled

/-- The next step of a call. -/
def stepCall (cfg : Config) (c : CallId) (s : State) : State :=
  match s.calls[c]? with
  | none => s
  | some caller =>
    match caller.phase with
    | .starting => s.startCall cfg c caller
    | .queued => s.resumeQueued cfg c caller
    | .waiting _ => if caller.cancelRequested then s.finishHolder c .cancelled else s
    | .delivered outcome =>
      let o := if caller.cancelRequested then .cancelled else outcome
      (s.hand c o).finishHolder c (resultOf c caller.call o)
    | .finished _ => s

/-- The answer to the next request, and the answers left. -/
def takeReply : List Reply → Reply × List Reply
  | [] => (.response { status := 200 }, [])
  | [r] => (r, [r])
  | r :: rest => (r, rest)

/-- The call that waits for a round trip and can still be reached. -/
def listener? (t : TripId) (s : State) : Option CallId :=
  s.lock.holder.filter fun c =>
    match s.calls[c]? with
    | some ⟨_, .waiting u, false⟩ => u == t
    | _ => false

/-- Ends a round trip. -/
def finishTrip (t : TripId) (o : Outcome) (s : State) : State :=
  ((s.setTrip t (.finished o)).observe [.arrived t o]).schedule
    (.retire t :: (s.listener? t).toList.map (.deliver t))

/-- Answers the request of a round trip. -/
def answerTrip (cfg : Config) (key : RefreshKey) (t : TripId) (s : State) : State :=
  let (reply, replies) := takeReply s.replies
  let result := settlement cfg.nesting cfg.margin key s.clock s.held reply
  ({ s with replies, held := result.held }.observe (result.notes.map .note)).finishTrip t
    result.outcome

/-- The first step of a round trip. -/
def startTrip (cfg : Config) (key : RefreshKey) (t : TripId) (s : State) : State :=
  let s := s.observe [.note (.started key.clientId)]
  match refreshRequest cfg.url key with
  | .error fault => s.finishTrip t (.failed (.notEncodable fault))
  | .ok request =>
    let s := s.observe [.request request]
    if cfg.gated.waits t then s.setTrip t .sent else s.answerTrip cfg key t

/-- The next step of a round trip. -/
def stepTrip (cfg : Config) (t : TripId) (s : State) : State :=
  match cfg.source, s.trips[t]? with
  | .refreshable key, some .starting => s.startTrip cfg key t
  | .refreshable key, some .released => s.answerTrip cfg key t
  | _, _ => s

def retire (t : TripId) (s : State) : State :=
  if s.pending = some t then { s with pending := none } else s

/-- Hands the outcome of a round trip to the call that waits for it, unless it gave up. -/
def deliver (t : TripId) (c : CallId) (s : State) : State :=
  match s.calls[c]?, s.trips[t]? with
  | some ⟨_, .waiting u, false⟩, some (.finished outcome) =>
    if u = t then (s.setPhase c (.delivered outcome)).schedule [.call c] else s
  | _, _ => s

/-- Performs one task. -/
def perform (cfg : Config) (task : Task) (s : State) : State :=
  match task with
  | .call c => s.stepCall cfg c
  | .trip t => s.stepTrip cfg t
  | .retire t => s.retire t
  | .deliver t c => s.deliver t c

/-- Performs the task at the head of the queue. -/
def turn (cfg : Config) (s : State) : State :=
  match s.ready with
  | [] => s
  | task :: rest => { s with ready := rest }.perform cfg task

/-- A number that every turn lowers. -/
def weight (s : State) : Nat :=
  s.ready.length + s.calls.foldr (fun c n => c.phase.weight + n) 0
    + s.trips.foldr (fun t n => t.weight + n) 0

/-- Performs tasks, at most `bound` of them. -/
def turns (cfg : Config) : (bound : Nat) → State → State
  | 0, s => s
  | bound + 1, s => if s.ready.isEmpty then s else turns cfg bound (s.turn cfg)

/-- Performs tasks until none is left. -/
def settle (cfg : Config) (s : State) : State := turns cfg s.weight s

end State

/-- What comes from outside. -/
inductive Action where
  | call (call : Call)
  | cancel (c : CallId)
  | advance (micros : Int)
  | supply (replies : List Reply)
  | release
  | rest

namespace State

/-- Asks for the cancellation of a call. A call that waits is woken for it; one that is scheduled
already learns of it then; one that has ended is left alone. -/
def cancel (c : CallId) (s : State) : State :=
  match s.calls[c]? with
  | none => s
  | some caller =>
    let s' := { s with calls := s.calls.modify c fun k => { k with cancelRequested := true } }
    match caller.phase with
    | .finished _ => s
    | .queued =>
      if s.lock.isWaiting c then { s' with lock := s.lock.giveUp c }.schedule [.call c] else s'
    | .waiting _ => if caller.cancelRequested then s' else s'.schedule [.call c]
    | .starting | .delivered _ => s'

/-- The state some time later, unless that leaves the calendar. -/
def advance? (micros : Int) (s : State) : Option State := do
  let d ← Duration.ofMicros? micros
  let clock ← s.clock.add? d
  return { s with clock }

/-- Lets the request that was sent first be answered. -/
def release (s : State) : State :=
  match s.trips.findIdx? (·.isSent) with
  | none => s
  | some t => (s.setTrip t .released).schedule [.trip t]

/-- Performs an action. Time that would leave the calendar does not pass. -/
def act (s : State) : Action → State
  | .call call =>
    let c := s.calls.length
    { s with
      calls := s.calls ++ [({ call } : Caller)]
      mappings := s.mappings ++ call.mappings c }.schedule [.call c]
  | .cancel c => s.cancel c
  | .advance micros => (s.advance? micros).getD s
  | .supply replies => { s with replies }
  | .release => s.release
  | .rest => s

/-- Performs actions in order and then all that they make possible. -/
def step (cfg : Config) (s : State) (actions : List Action) : State :=
  (actions.foldl act s).settle cfg

/-- Performs steps in order. -/
def run (cfg : Config) (s : State) (steps : List (List Action)) : State :=
  steps.foldl (step cfg) s

/-- The state after one call made on a settled state, and the result of the call. -/
def callNow (cfg : Config) (s : State) (call : Call) : State × Option Result :=
  let s' := s.step cfg [.call call]
  (s', s'.result? s.calls.length)

/-- The notes of a run. -/
def notes (s : State) : List Note :=
  s.trace.filterMap fun
    | .note n => some n
    | _ => none

/-- The requests of a run. -/
def requests (s : State) : List Request :=
  s.trace.filterMap fun
    | .request r => some r
    | _ => none

end State

end Bearer.Cache
