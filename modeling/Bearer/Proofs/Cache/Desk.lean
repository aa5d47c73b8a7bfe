import Bearer.Proofs.Cache.Sequential

/-! While nobody is cancelled, the calls of a cache fall into those that have ended, the one at the desk, those in the
queue for the lock, and those that have yet to start. -/

namespace Bearer.Cache

/-- The third list holds the elements of the other two, each in their order. -/
inductive Interleaved {α : Type} : List α → List α → List α → Prop where
  | nil : Interleaved [] [] []
  | left (x : α) {xs ys zs : List α} (h : Interleaved xs ys zs) : Interleaved (x :: xs) ys (x :: zs)
  | right (y : α) {xs ys zs : List α} (h : Interleaved xs ys zs) : Interleaved xs (y :: ys) (y :: zs)

namespace Interleaved

variable {α : Type} {xs ys zs : List α}

theorem of_right (ys : List α) : Interleaved [] ys ys := by
  induction ys with
  | nil => exact .nil
  | cons y ys ih => exact .right y ih

theorem eq_of_left_nil (h : Interleaved [] ys zs) : zs = ys := by
  induction ys generalizing zs with
  | nil =>
      cases h
      rfl
  | cons y ys ih =>
      cases h with
      | right _ h => rw [ih h]

theorem eq_nil (h : Interleaved xs ys []) : xs = [] ∧ ys = [] := by
  cases h
  exact ⟨rfl, rfl⟩

theorem push_left (h : Interleaved xs ys zs) (x : α) : Interleaved (xs ++ [x]) ys (zs ++ [x]) := by
  induction h with
  | nil => exact .left x .nil
  | left y _ ih => exact .left y ih
  | right y _ ih => exact .right y ih

theorem push_right (h : Interleaved xs ys zs) (y : α) : Interleaved xs (ys ++ [y]) (zs ++ [y]) := by
  induction h with
  | nil => exact .right y .nil
  | left x _ ih => exact .left x ih
  | right x _ ih => exact .right x ih

end Interleaved

/-- What has become of the call that is served next: there is none, it was passed the lock, or it waits
for its round trip, which is in one of its legs. -/
inductive Desk where
  | free
  | passed (call : Call)
  | asking (call : Call) (t : TripId)
  | sent (call : Call) (t : TripId)
  | released (call : Call) (t : TripId)
  | arrived (call : Call) (t : TripId) (o : Outcome)
  | retired (call : Call) (t : TripId) (o : Outcome)
  | delivered (call : Call) (o : Outcome)

namespace Desk

/-- The call at the desk. -/
def callers : Desk → List Caller
  | free => []
  | passed call => [⟨call, .queued, false⟩]
  | asking call t | sent call t | released call t | arrived call t _ | retired call t _ =>
    [⟨call, .waiting t, false⟩]
  | delivered call o => [⟨call, .delivered o, false⟩]

/-- The lock, where the call at the desk is the `n`-th one. -/
def lock (n : CallId) (queue : List (CallId × Wait)) : Desk → Lock
  | free => ⟨none, queue⟩
  | passed _ => ⟨none, (n, .woken) :: queue⟩
  | _ => ⟨some n, queue⟩

/-- The round trip of the call at the desk. -/
def trip? : Desk → Option (TripId × Trip)
  | free | passed _ | delivered _ _ => none
  | asking _ t => some (t, .starting)
  | sent _ t => some (t, .sent)
  | released _ t => some (t, .released)
  | arrived _ t o | retired _ t o => some (t, .finished o)

/-- The round trip that callers would join. -/
def pending : Desk → Option TripId
  | asking _ t | sent _ t | released _ t | arrived _ t _ => some t
  | free | passed _ | retired _ _ _ | delivered _ _ => none

/-- The tasks that concern the call at the desk. -/
def duties (n : CallId) : Desk → List Task
  | free | sent _ _ => []
  | passed _ | delivered _ _ => [.call n]
  | asking _ t | released _ t => [.trip t]
  | arrived _ t _ => [.retire t, .deliver t n]
  | retired _ t _ => [.deliver t n]

/-- The call at the desk, as long as its answer has not arrived. -/
def line : Desk → List Call
  | passed call | asking call _ | sent call _ | released call _ => [call]
  | free | arrived _ _ _ | retired _ _ _ | delivered _ _ => []

def stage : Desk → Stage
  | asking _ _ => .due
  | sent _ _ => .sent
  | released _ _ => .released
  | free | passed _ | arrived _ _ _ | retired _ _ _ | delivered _ _ => .idle

/-- The result of the call at the desk, the `n`-th one, once its answer has arrived. -/
def results (n : CallId) : Desk → List Result
  | free | passed _ | asking _ _ | sent _ _ | released _ _ => []
  | arrived call _ o | retired call _ o | delivered call o => [State.resultOf n call o]

/-- The round trip whose request is still to be sent. -/
def unsent : Desk → List TripId
  | asking _ t => [t]
  | free | passed _ | sent _ _ | released _ _ | arrived _ _ _ | retired _ _ _ | delivered _ _ => []

theorem length_callers {desk : Desk} (hBusy : desk ≠ .free) : desk.callers.length = 1 := by
  cases desk with
  | free => contradiction
  | _ => rfl

/-- While a call is at the desk, newcomers go to the end of the queue. -/
theorem isOpen_lock {desk : Desk} (hBusy : desk ≠ .free) (n : CallId) (queue : List (CallId × Wait)) :
    (desk.lock n queue).isOpen = false := by
  cases desk with
  | free => contradiction
  | passed call => simp [lock, Lock.isOpen]
  | _ => rfl

theorem join_lock (desk : Desk) (n c : CallId) (queue : List (CallId × Wait)) :
    (desk.lock n queue).join c = desk.lock n (queue ++ [(c, .waiting)]) := by
  cases desk <;> rfl

end Desk

/-- Places in the queue for the lock, from the `n`-th call on. -/
def inLine (n : CallId) (count : Nat) : List (CallId × Wait) :=
  (List.range' n count).map fun c => (c, .waiting)

/-- First steps of calls, from the `n`-th call on. -/
def arrivals (n : CallId) (count : Nat) : List Task := (List.range' n count).map .call

/-- A call that has ended. -/
def Caller.ended (e : Call × Result) : Caller := ⟨e.1, .finished e.2, false⟩

/-- A call that stands in the queue for the lock. -/
def Caller.queued (call : Call) : Caller := ⟨call, .queued, false⟩

/-- A call that has yet to start. -/
def Caller.starting (call : Call) : Caller := ⟨call, .starting, false⟩

/-- The calls of the four groups. -/
def layout (done : List (Call × Result)) (desk : List Caller) (queue fresh : List Call) : List Caller :=
  done.map .ended ++ (desk ++ (queue.map .queued ++ fresh.map .starting))

namespace State

/-- The same store and the same requests. -/
structure Agrees (s : State) (q : Sequential) : Prop where
  clock : s.clock = q.clock
  held : s.held = q.held
  replies : s.replies = q.replies
  requests : s.requests = q.requests

/-- A state without cancelled calls, and the sequential cache that has come as far. -/
structure Serves (s : State) (q : Sequential) (done : List (Call × Result)) (desk : Desk)
    (queue fresh : List Call) : Prop where
  agrees : s.Agrees q
  calls : s.calls = layout done desk.callers queue fresh
  lock : s.lock = desk.lock done.length (inLine (done.length + 1) queue.length)
  pending : s.pending = desk.pending
  trip : ∀ t trip, desk.trip? = some (t, trip) → s.trips[t]? = some trip
  ready : Interleaved (desk.duties done.length)
    (arrivals (done.length + desk.callers.length + queue.length) fresh.length) s.ready
  queue_of_free : desk = .free → queue = []
  line : q.line = desk.line ++ (queue ++ fresh)
  stage : q.stage = desk.stage
  results : q.results = done.map (·.2) ++ desk.results done.length
  /-- The round trips are numbered as their requests are. -/
  trips : s.trips.length = q.requests.length + desk.unsent.length
  unsent : ∀ t ∈ desk.unsent, t = q.requests.length
  finished : s.finished = (done.map (·.2)).mapIdx fun c r => (c, r)

/-- A sequential cache that has come as far as a state. -/
def Mirrors (s : State) (q : Sequential) : Prop :=
  ∃ done desk queue fresh, s.Serves q done desk queue fresh

/-- A state in which the call at the desk has its turn. -/
structure AtDesk (s : State) (done : List (Call × Result)) (call : Call) (queue fresh : List Call) :
    Prop where
  calls : ∃ p, s.calls = layout done [⟨call, p, false⟩] queue fresh
  waiters : s.lock.waiters = inLine (done.length + 1) queue.length
  pending : s.pending = none
  ready : s.ready = arrivals (done.length + 1 + queue.length) fresh.length
  finished : s.finished = (done.map (·.2)).mapIdx fun c r => (c, r)

variable {cfg : Config} {request : Request} {s : State} {q : Sequential} {done : List (Call × Result)}
  {call : Call} {desk : Desk} {queue fresh : List Call}

theorem getElem?_middle {α : Type} (xs : List α) (y : α) (zs : List α) :
    (xs ++ y :: zs)[xs.length]? = some y := by
  simp

theorem modify_middle {α : Type} (xs : List α) (y : α) (zs : List α) (f : α → α) :
    (xs ++ y :: zs).modify xs.length f = xs ++ f y :: zs := by
  induction xs with
  | nil => rfl
  | cons x xs ih => simp [ih]

theorem layout_desk (done : List (Call × Result)) (k : Caller) (queue fresh : List Call) :
    (layout done [k] queue fresh)[done.length]? = some k := by
  have h := getElem?_middle (done.map .ended) k (queue.map .queued ++ fresh.map .starting)
  rw [List.length_map] at h
  exact h

theorem layout_modify_desk (done : List (Call × Result)) (k : Caller) (queue fresh : List Call)
    (f : Caller → Caller) :
    (layout done [k] queue fresh).modify done.length f = layout done [f k] queue fresh := by
  have h := modify_middle (done.map .ended) k (queue.map .queued ++ fresh.map .starting) f
  rw [List.length_map] at h
  exact h

/-- The call at the desk has ended. -/
theorem layout_done (done : List (Call × Result)) (call : Call) (r : Result) (queue fresh : List Call) :
    layout done [⟨call, .finished r, false⟩] queue fresh = layout (done ++ [(call, r)]) [] queue fresh := by
  simp [layout, Caller.ended]

/-- The first call that has yet to start. -/
theorem layout_fresh (done : List (Call × Result)) (desk : List Caller) (call : Call)
    (queue fresh : List Call) : ∃ front : List Caller,
      front.length = done.length + desk.length + queue.length ∧
      layout done desk queue (call :: fresh) = front ++ .starting call :: fresh.map .starting ∧
      layout done desk (queue ++ [call]) fresh = front ++ .queued call :: fresh.map .starting :=
  ⟨done.map .ended ++ (desk ++ queue.map .queued), by simp [Nat.add_assoc], by simp [layout],
    by simp [layout]⟩

theorem inLine_succ (n : CallId) (count : Nat) :
    inLine n (count + 1) = (n, .waiting) :: inLine (n + 1) count := by
  simp [inLine, List.range'_succ]

theorem inLine_concat (n : CallId) (count : Nat) :
    inLine n (count + 1) = inLine n count ++ [(n + count, .waiting)] := by
  simp [inLine, List.range'_1_concat]

theorem arrivals_succ (n : CallId) (count : Nat) :
    arrivals n (count + 1) = .call n :: arrivals (n + 1) count := by
  simp [arrivals, List.range'_succ]

theorem arrivals_concat (n : CallId) (count : Nat) :
    arrivals n (count + 1) = arrivals n count ++ [.call (n + count)] := by
  simp [arrivals, List.range'_1_concat]

theorem Agrees.observe (h : s.Agrees q) {events : List Event} (hEvents : ∀ r, .request r ∉ events) :
    (s.observe events).Agrees q where
  clock := h.clock
  held := h.held
  replies := h.replies
  requests := (requests_observe_eq hEvents s).trans h.requests

theorem Agrees.requested (h : s.Agrees q) (r : Request) :
    (s.observe [.request r]).Agrees { q with requests := q.requests ++ [r] } where
  clock := h.clock
  held := h.held
  replies := h.replies
  requests := (requests_observe [.request r] s).trans (congrArg (· ++ [r]) h.requests)

theorem release_inLine {l : Lock} {n : CallId} (hWaiters : l.waiters = inLine n 0) :
    l.release = (⟨none, inLine (n + 1) 0⟩, none) := by
  obtain ⟨holder, waiters⟩ := l
  subst hWaiters
  rfl

theorem release_inLine_succ {l : Lock} {n : CallId} {count : Nat}
    (hWaiters : l.waiters = inLine n (count + 1)) :
    l.release = (⟨none, (n, .woken) :: inLine (n + 1) count⟩, some n) := by
  obtain ⟨holder, waiters⟩ := l
  subst hWaiters
  rw [inLine_succ]
  rfl

namespace AtDesk

/-- The call at the desk ends, and the next one is passed the lock. -/
theorem finishHolder (h : AtDesk s done call queue fresh) (hAgrees : s.Agrees q) {r : Result}
    (hLine : q.line = queue ++ fresh) (hStage : q.stage = .idle)
    (hResults : q.results = done.map (·.2) ++ [r]) (hTrips : s.trips.length = q.requests.length) :
    (s.finishHolder done.length r).Mirrors q := by
  have hCalls : (s.finishHolder done.length r).calls = layout (done ++ [(call, r)]) [] queue fresh := by
    obtain ⟨p, hCalls⟩ := h.calls
    change s.calls.modify done.length (fun k => { k with phase := .finished r }) = _
    rw [hCalls, layout_modify_desk]
    exact layout_done done call r queue fresh
  have hReady : (s.finishHolder done.length r).ready =
      s.ready ++ s.lock.release.2.toList.map .call := rfl
  have hFinished : (s.finishHolder done.length r).finished =
      ((done ++ [(call, r)]).map (·.2)).mapIdx fun c r => (c, r) := by
    rw [State.finishHolder, State.finish, finished_observe]
    change s.finished ++ [(done.length, r)] = _
    rw [h.finished, List.map_append, List.mapIdx_append]
    simp
  have hAgrees' : (s.finishHolder done.length r).Agrees q := by
    apply Agrees.observe _ (by simp)
    exact ⟨hAgrees.clock, hAgrees.held, hAgrees.replies, hAgrees.requests⟩
  have hResults' : q.results = (done ++ [(call, r)]).map (·.2) ++ [] := by simp [hResults]
  cases queue with
  | nil =>
      have hLock := release_inLine h.waiters
      refine ⟨done ++ [(call, r)], .free, [], fresh, ?_⟩
      exact {
        agrees := hAgrees'
        calls := hCalls
        lock := by
          change s.lock.release.1 = _
          rw [hLock]
          rfl
        pending := h.pending
        trip := by simp [Desk.trip?]
        ready := by
          rw [hReady, hLock, h.ready]
          simpa [Desk.duties, Desk.callers] using Interleaved.of_right _
        queue_of_free := fun _ => rfl
        line := hLine
        stage := hStage
        results := hResults'
        trips := hTrips
        unsent := by simp [Desk.unsent]
        finished := hFinished }
  | cons next queue =>
      have hLock := release_inLine_succ h.waiters
      refine ⟨done ++ [(call, r)], .passed next, queue, fresh, ?_⟩
      exact {
        agrees := hAgrees'
        calls := hCalls
        lock := by
          change s.lock.release.1 = _
          rw [hLock, List.length_append]
          rfl
        pending := h.pending
        trip := by simp [Desk.trip?]
        ready := by
          rw [hReady, hLock, h.ready]
          have hPush := (Interleaved.of_right (arrivals (done.length + 1 + (queue.length + 1))
            fresh.length)).push_left (.call (done.length + 1))
          simpa [Desk.duties, Desk.callers, Nat.add_assoc, Nat.add_comm, Nat.add_left_comm] using hPush
        queue_of_free := by simp
        line := hLine
        stage := hStage
        results := hResults'
        trips := hTrips
        unsent := by simp [Desk.unsent]
        finished := hFinished }

theorem observe (h : AtDesk s done call queue fresh) {events : List Event}
    (hEvents : ∀ c r, .finished c r ∉ events) : AtDesk (s.observe events) done call queue fresh where
  calls := h.calls
  waiters := h.waiters
  pending := h.pending
  ready := h.ready
  finished := (finished_observe_eq hEvents s).trans h.finished

/-- An outcome that reaches a call leaves the desk alone. -/
theorem hand (h : AtDesk s done call queue fresh) (c : CallId) (o : Outcome) :
    AtDesk (s.hand c o) done call queue fresh := ⟨h.calls, h.waiters, h.pending, h.ready, h.finished⟩

/-- The call at the desk waits for a new round trip. -/
theorem awaitTrip (h : AtDesk s done call queue fresh) (hHolder : s.lock.holder = some done.length)
    (hAgrees : s.Agrees q) (hLine : q.line = call :: (queue ++ fresh)) (hStage : q.stage = .due)
    (hResults : q.results = done.map (·.2)) (hTrips : s.trips.length = q.requests.length) :
    (s.awaitTrip done.length).Mirrors q := by
  unfold State.awaitTrip
  rw [h.pending]
  refine ⟨done, .asking call s.trips.length, queue, fresh, ?_⟩
  exact {
    agrees := ⟨hAgrees.clock, hAgrees.held, hAgrees.replies, hAgrees.requests⟩
    calls := by
      obtain ⟨p, hCalls⟩ := h.calls
      change s.calls.modify done.length (fun k => { k with phase := .waiting s.trips.length }) = _
      rw [hCalls, layout_modify_desk]
      rfl
    lock := by
      change s.lock = ⟨some done.length, inLine (done.length + 1) queue.length⟩
      rw [← hHolder, ← h.waiters]
    pending := rfl
    trip := fun t trip hTrip => by
      cases hTrip
      change (s.trips ++ [Trip.starting])[s.trips.length]? = some .starting
      simp
    ready := by
      change Interleaved [.trip s.trips.length] _ (s.ready ++ [.trip s.trips.length])
      rw [h.ready]
      exact (Interleaved.of_right _).push_left _
    queue_of_free := by simp
    line := hLine
    stage := hStage
    results := by simpa [Desk.results] using hResults
    trips := by
      change (s.trips ++ [Trip.starting]).length = q.requests.length + 1
      rw [List.length_append, List.length_singleton, hTrips]
    unsent := fun t ht => (List.mem_singleton.mp ht).trans hTrips
    finished := h.finished }

/-- What the call at the desk does is what a sequential cache does with the first call in line. -/
theorem enter (h : AtDesk s done call queue fresh) (hAgrees : s.Agrees q)
    (hLine : q.line = call :: (queue ++ fresh)) (hStage : q.stage = .idle)
    (hResults : q.results = done.map (·.2)) (hTrips : s.trips.length = q.requests.length) :
    (s.enter cfg done.length call).Mirrors (q.serve cfg request) := by
  generalize hTaken : { s with lock := s.lock.take done.length }.observe [.acquired done.length] = taken
  have hDesk : AtDesk taken done call queue fresh := by
    rw [← hTaken]
    apply observe _ (by simp)
    exact ⟨h.calls, h.waiters, h.pending, h.ready, h.finished⟩
  have hTakenAgrees : taken.Agrees q := by
    rw [← hTaken]
    apply Agrees.observe _ (by simp)
    exact ⟨hAgrees.clock, hAgrees.held, hAgrees.replies, hAgrees.requests⟩
  have hHolder : taken.lock.holder = some done.length := by
    rw [← hTaken]
    rfl
  have hTakenTrips : taken.trips.length = q.requests.length := by
    rw [← hTaken]
    exact hTrips
  have hNumber : q.results.length = done.length := by rw [hResults, List.length_map]
  have hDrop : taken.dropFinished = taken := by
    unfold State.dropFinished
    rw [hDesk.pending]
  have hFresh : taken.storedIsFresh? cfg call = q.canReuse? cfg call := by
    unfold storedIsFresh? Sequential.canReuse?
    rw [hDesk.pending, ← hTakenAgrees.held, ← hTakenAgrees.clock]
    cases call <;> rfl
  unfold State.enter Sequential.serve
  rw [hLine, hTaken, hDrop]
  dsimp only
  rw [hFresh, hStage]
  cases q.canReuse? cfg call with
  | none =>
      refine hDesk.finishHolder ?_ ?_ ?_ ?_ hTakenTrips
      · exact ⟨hTakenAgrees.clock, hTakenAgrees.held, hTakenAgrees.replies, hTakenAgrees.requests⟩
      · rfl
      · rfl
      · exact congrArg (· ++ [_]) hResults
  | some reuse =>
      cases reuse with
      | true =>
          have hNoted : AtDesk (taken.observe [.note (.cached taken.held.expiresAt)]) done call queue
              fresh := hDesk.observe (by simp)
          have hNotedAgrees : (taken.observe [.note (.cached taken.held.expiresAt)]).Agrees q :=
            hTakenAgrees.observe (by simp)
          rw [← hTakenAgrees.held, hNumber]
          refine (hNoted.hand done.length _).finishHolder ?_ ?_ ?_ ?_ hTakenTrips
          · exact ⟨hNotedAgrees.clock, hNotedAgrees.held, hNotedAgrees.replies, hNotedAgrees.requests⟩
          · rfl
          · rfl
          · exact congrArg (· ++ [_]) hResults
      | false =>
          refine hDesk.awaitTrip hHolder ?_ ?_ ?_ ?_ hTakenTrips
          · exact ⟨hTakenAgrees.clock, hTakenAgrees.held, hTakenAgrees.replies, hTakenAgrees.requests⟩
          · rfl
          · rfl
          · exact hResults

end AtDesk

/-- A state in which the round trip that the call at the desk waits for has its turn. -/
structure Asked (s : State) (done : List (Call × Result)) (call : Call) (t : TripId)
    (queue fresh : List Call) : Prop where
  calls : s.calls =
    layout done [⟨call, .waiting t, false⟩] queue fresh
  lock : s.lock = ⟨some done.length, inLine (done.length + 1) queue.length⟩
  pending : s.pending = some t
  trip : t < s.trips.length
  ready : s.ready = arrivals (done.length + 1 + queue.length) fresh.length
  finished : s.finished = (done.map (·.2)).mapIdx fun c r => (c, r)

namespace Asked

variable {t : TripId}

theorem listener?_eq (h : Asked s done call t queue fresh) : s.listener? t = some done.length := by
  rw [listener?, h.lock, Option.filter_some, h.calls, layout_desk]
  simp

theorem observe (h : Asked s done call t queue fresh) {events : List Event}
    (hEvents : ∀ c r, .finished c r ∉ events) : Asked (s.observe events) done call t queue fresh where
  calls := h.calls
  lock := h.lock
  pending := h.pending
  trip := h.trip
  ready := h.ready
  finished := (finished_observe_eq hEvents s).trans h.finished

/-- The round trip ends, and the call at the desk is as good as served. -/
theorem finishTrip (h : Asked s done call t queue fresh) (hAgrees : s.Agrees q)
    (hResults : q.results = done.map (·.2)) (hTrips : s.trips.length = q.requests.length) (o : Outcome) :
    (s.finishTrip t o).Mirrors (q.finish (queue ++ fresh) (resultOf done.length call o)) := by
  have hReady : (s.finishTrip t o).ready = s.ready ++ [.retire t] ++ [.deliver t done.length] := by
    rw [State.finishTrip, h.listener?_eq, List.append_assoc]
    rfl
  have hSeen : ∀ r, Event.request r ∉ [Event.arrived t o] := by simp
  have hArrived : Asked ((s.setTrip t (.finished o)).observe [.arrived t o]) done call t queue fresh := by
    apply observe _ (by simp)
    exact ⟨h.calls, h.lock, h.pending, Nat.lt_of_lt_of_eq h.trip List.length_set.symm, h.ready, h.finished⟩
  refine ⟨done, .arrived call t o, queue, fresh, ?_⟩
  exact {
    agrees := ⟨hAgrees.clock, hAgrees.held, hAgrees.replies,
      (requests_observe_eq hSeen _).trans hAgrees.requests⟩
    calls := hArrived.calls
    lock := hArrived.lock
    pending := hArrived.pending
    trip := fun u trip hTrip => by
      cases hTrip
      exact List.getElem?_set_self h.trip
    ready := by
      rw [hReady, h.ready]
      exact ((Interleaved.of_right _).push_left _).push_left _
    queue_of_free := by simp
    line := rfl
    stage := rfl
    results := congrArg (· ++ [_]) hResults
    trips := List.length_set.trans hTrips
    unsent := by simp [Desk.unsent]
    finished := hArrived.finished }

/-- The answer that arrives is the one that a sequential cache takes. -/
theorem answerTrip (h : Asked s done call t queue fresh) (key : RefreshKey) (hAgrees : s.Agrees q)
    (hResults : q.results = done.map (·.2)) (hTrips : s.trips.length = q.requests.length) :
    (s.answerTrip cfg key t).Mirrors (q.take cfg.nesting call (queue ++ fresh)) := by
  have hNumber : q.results.length = done.length := by rw [hResults, List.length_map]
  have hVerdict := verdict_eq_settlement cfg.nesting cfg.margin key s.clock s.held (takeReply s.replies).1
  rw [answerTrip_eq, Sequential.take, ← hAgrees.replies, ← hAgrees.clock, ← hAgrees.held, hVerdict, hNumber]
  generalize settlement cfg.nesting cfg.margin key s.clock s.held (takeReply s.replies).1 = result
  have hTaken : Asked { s with replies := (takeReply s.replies).2, held := result.held } done call t queue
      fresh := ⟨h.calls, h.lock, h.pending, h.trip, h.ready, h.finished⟩
  have hTakenAgrees : State.Agrees { s with replies := (takeReply s.replies).2, held := result.held }
      { q with clock := s.clock, replies := (takeReply s.replies).2, held := result.held } :=
    ⟨rfl, rfl, rfl, hAgrees.requests⟩
  exact (hTaken.observe (by simp)).finishTrip (hTakenAgrees.observe (by simp)) hResults hTrips
    result.outcome

end Asked

end State

end Bearer.Cache
