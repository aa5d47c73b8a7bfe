import Bearer.Proofs.Cache.Classification
import Bearer.Proofs.Cache.Settling
import Bearer.Proofs.Cache.Simulation

/-! What callers see of a shared cache that nobody gives up on: the calls end in the order in which they were made,
and their results, the requests and the held token are those of a cache that serves one call after the other. -/

namespace Bearer.Cache

/-- What becomes of a reply that is taken at the instant `now`. It ends the refresh as it calls for. A grant is
stored whole unless it expires after the last year, and any other reply stores nothing. -/
structure Answer.Settled (nesting : Nat) (held : HeldToken) (a : Answer) (o : Outcome) (after : HeldToken) : Prop where
  yields : a.Yields nesting o
  stored : ∀ g expiry, a.reply.grant? nesting = some g → g.expiry? a.now = some expiry →
    o = .token g.token ∧ after = ⟨some g.token, some expiry⟩
  kept : a.reply.grant? nesting = none → (∀ token, o ≠ .token token) ∧ after = held

/-- What a sequential cache makes of a reply of a transport that keeps its contract. -/
theorem settled_verdict (nesting : Nat) (held : HeldToken) {a : Answer} (hKeeps : a.reply.KeepsContract) :
    a.Settled nesting held (a.reply.verdict nesting a.now held).1 (a.reply.verdict nesting a.now held).2 := by
  rw [verdict_eq_settlement nesting .minute ⟨[], [], []⟩ a.now held a.reply]
  refine ⟨yields_settlement nesting _ _ held hKeeps, fun g expiry hGrant hExpiry => ?_, fun hNone => ?_⟩
  · rw [settlement_of_grant nesting _ _ held hGrant]
    exact store_of_expiry _ held hExpiry
  · exact settlement_of_no_grant nesting _ _ held hNone

namespace State

variable {cfg : Config} {request : Request} {s : State} {q : Sequential} {done : List (Call × Result)}
  {desk : Desk} {queue fresh : List Call} {key : RefreshKey}

namespace Serves

/-- The calls that have ended are the first ones. -/
theorem result?_eq (h : Serves s q done desk queue fresh) (c : CallId) :
    s.result? c = (done.map (·.2))[c]? := by
  have hOpen : ∀ k ∈ desk.callers ++ (queue.map .queued ++ fresh.map .starting), ∀ r,
      k.phase ≠ .finished r := by
    intro k hk r
    rcases List.mem_append.mp hk with hk | hk
    · cases desk <;> simp [Desk.callers] at hk <;> simp [hk]
    · rcases List.mem_append.mp hk with hk | hk
      · obtain ⟨call, _, rfl⟩ := List.mem_map.mp hk
        simp [Caller.queued]
      · obtain ⟨call, _, rfl⟩ := List.mem_map.mp hk
        simp [Caller.starting]
  rw [result?, phase?, h.calls, layout]
  by_cases hBound : c < done.length
  · rw [List.getElem?_append_left (by simpa using hBound)]
    simp [Caller.ended, List.getElem?_eq_getElem hBound]
  · have hNone : (done.map (·.2))[c]? = none := List.getElem?_eq_none (by simpa using hBound)
    rw [List.getElem?_append_right (by simpa using hBound), hNone]
    cases hCall : (desk.callers ++ (queue.map .queued ++ fresh.map .starting))[c - (done.map
        Caller.ended).length]? with
    | none => rfl
    | some k =>
        have hPhase := hOpen k (List.mem_of_getElem? hCall)
        rw [Option.map_some]
        split
        · next r hFinished => exact absurd (Option.some.inj hFinished) (hPhase r)
        · rfl

/-- Once nothing is left to do, no call can be served any further. -/
theorem settled (h : Serves s q done desk queue fresh) (hReady : s.ready = []) :
    q.IsDone ∧ q.results = done.map (·.2) := by
  obtain ⟨hDuties, hArrivals⟩ := (hReady ▸ h.ready).eq_nil
  have hFresh : fresh = [] := by
    cases fresh with
    | nil => rfl
    | cons call fresh => rw [List.length_cons, arrivals_succ] at hArrivals; contradiction
  cases desk with
  | free =>
      refine ⟨.inl ?_, h.results.trans (List.append_nil _)⟩
      rw [h.line, h.queue_of_free rfl, hFresh]
      rfl
  | sent call t => exact ⟨.inr h.stage, h.results.trans (List.append_nil _)⟩
  | _ => cases hDuties

end Serves

namespace Mirrors

theorem agrees (h : s.Mirrors q) : s.Agrees q := by
  obtain ⟨_, _, _, _, h⟩ := h
  exact h.agrees

/-- The calls have ended in the order in which they were made. -/
theorem finished_isPrefix (h : s.Mirrors q) : s.finished <+: q.finished := by
  obtain ⟨done, desk, queue, fresh, h⟩ := h
  rw [h.finished, Sequential.finished, h.results, List.mapIdx_append]
  exact List.prefix_append _ _

theorem settled (h : s.Mirrors q) (hReady : s.ready = []) :
    q.IsDone ∧ s.finished = q.finished ∧ ∀ c, s.result? c = q.results[c]? := by
  obtain ⟨done, desk, queue, fresh, h⟩ := h
  obtain ⟨hDone, hResults⟩ := h.settled hReady
  refine ⟨hDone, ?_, ?_⟩
  · rw [h.finished, Sequential.finished, hResults]
  · intro c
    rw [h.result?_eq, hResults]

theorem acts (h : s.Mirrors q) (hFlight : SingleFlight s) {actions : List Action}
    (hCalm : ∀ a ∈ actions, (Move.act a).IsCalm) :
    (actions.foldl State.act s).Mirrors (actions.foldl Sequential.act q) := by
  induction actions generalizing s q with
  | nil => exact h
  | cons a actions ih =>
      exact ih (h.act hFlight (hCalm a List.mem_cons_self)) (hFlight.act a)
        fun a ha => hCalm a (List.mem_cons_of_mem _ ha)

theorem turns (h : s.Mirrors q) (hSource : cfg.source = .refreshable key)
    (hRequest : refreshRequest cfg.url key = .ok request) (bound : Nat) :
    ∃ n, (s.turns cfg bound).Mirrors ((Sequential.serve cfg request)^[n] q) := by
  induction bound generalizing s q with
  | zero => exact ⟨0, h⟩
  | succ bound ih =>
      rw [State.turns]
      split
      · exact ⟨0, h⟩
      · rcases h.turn hSource hRequest with hSame | hServed
        · exact ih hSame
        · obtain ⟨n, hMirrors⟩ := ih hServed
          exact ⟨n + 1, hMirrors⟩

/-- A batch of actions and all that it makes possible. -/
theorem step (h : s.Mirrors q) (hFlight : SingleFlight s) (hSource : cfg.source = .refreshable key)
    (hRequest : refreshRequest cfg.url key = .ok request) {actions : List Action}
    (hCalm : ∀ a ∈ actions, (Move.act a).IsCalm) :
    (s.step cfg actions).Mirrors (q.step cfg request actions) := by
  obtain ⟨n, hMirrors⟩ := (h.acts hFlight hCalm).turns hSource hRequest
    (actions.foldl State.act s).weight
  have hDone := (hMirrors.settled (step_ready cfg s actions)).1
  rw [Sequential.step, ← Sequential.iterate_eq_settle hDone]
  exact hMirrors

theorem run (h : s.Mirrors q) (hFlight : SingleFlight s) (hSource : cfg.source = .refreshable key)
    (hRequest : refreshRequest cfg.url key = .ok request) {steps : List (List Action)}
    (hCalm : ∀ actions ∈ steps, ∀ a ∈ actions, (Move.act a).IsCalm) :
    (s.run cfg steps).Mirrors (q.run cfg request steps) := by
  induction steps generalizing s q with
  | nil => exact h
  | cons actions steps ih =>
      have hNext : SingleFlight (s.step cfg actions) := by
        obtain ⟨count, hStep⟩ := step_eq_play cfg s actions
        rw [hStep]
        exact hFlight.play _
      exact ih (h.step hFlight hSource hRequest (hCalm actions List.mem_cons_self)) hNext
        fun actions hMem => hCalm actions (List.mem_cons_of_mem _ hMem)

end Mirrors

/-- Concurrent calls of which none is cancelled are served one after the other. Under every schedule a
cache behaves as one that serves its calls one at a time, in the order in which they were made, under
the same actions: it holds the same token and has sent the same requests, the calls that have ended are
the first ones to be served, and once nothing is left to do all that can be served have ended, with the
same results. A run in steps is what serving all calls after each step gives. Serving a call takes one reply at
most, which ends the refresh as it calls for: over a transport that keeps its contract in the token that is stored,
or with an error that tells the cause, unless a date or a body is out of bounds. -/
theorem calls_served_in_order (cfg : Config) (key : RefreshKey) (hSource : cfg.source = .refreshable key)
    (hKey : key.IsScalar) (clock : Instant) (held : HeldToken) (replies : List Reply) :
    ∃ request, refreshRequest cfg.url key = .ok request ∧
      (∀ moves : List Move, (∀ m ∈ moves, m.IsCalm) →
        ∃ plan : List Move, plan.Sublist moves ∧ plan.filter Move.isAct = moves.filter Move.isAct ∧
          let s := (State.start clock held replies).play cfg moves
          let q := (Sequential.start clock held replies).play cfg request plan
          s.held = q.held ∧ s.requests = q.requests ∧ s.finished <+: q.finished ∧
            (s.ready = [] → q.IsDone ∧ s.finished = q.finished ∧ ∀ c, s.result? c = q.results[c]?)) ∧
      (∀ steps : List (List Action), (∀ actions ∈ steps, ∀ a ∈ actions, (Move.act a).IsCalm) →
        let s := (State.start clock held replies).run cfg steps
        let q := (Sequential.start clock held replies).run cfg request steps
        s.held = q.held ∧ s.requests = q.requests ∧ s.finished = q.finished ∧
          ∀ c, s.result? c = q.results[c]?) ∧
      ∀ (a : Answer) (held : HeldToken), a.reply.KeepsContract → a.Settled cfg.nesting held
        (a.reply.verdict cfg.nesting a.now held).1 (a.reply.verdict cfg.nesting a.now held).2 := by
  obtain ⟨request, hRequest⟩ := refreshRequest_of_isScalar cfg.url hKey
  have hStart := Mirrors.start clock held replies
  have hFlight := SingleFlight.start clock held replies
  refine ⟨request, hRequest, ?_, ?_, fun a held hKeeps => settled_verdict cfg.nesting held hKeeps⟩
  · intro moves hCalm
    obtain ⟨plan, hSub, hActs, hMirrors⟩ := hStart.play hFlight hSource hRequest hCalm
    exact ⟨plan, hSub, hActs, hMirrors.agrees.held, hMirrors.agrees.requests, hMirrors.finished_isPrefix,
      hMirrors.settled⟩
  · intro steps hCalm
    have hMirrors := hStart.run hFlight hSource hRequest hCalm
    obtain ⟨_, hFinished, hResults⟩ := hMirrors.settled (run_ready _ rfl steps)
    exact ⟨hMirrors.agrees.held, hMirrors.agrees.requests, hFinished, hResults⟩

/-- Three calls at once: the first one takes the held token, the refresh that was asked for fails, and
the last one still takes the held token. -/
theorem three_calls_served_in_order :
    let cfg : Config := { source := .refreshable ⟨"R", "id", "s"⟩, url := Grant.defaultUrl, margin := .minute }
    let s := (start ⟨1704110400000000, by decide, by decide⟩
      ⟨some "old", some ⟨1704114000000000, by decide, by decide⟩⟩ [.failed { message := "down" }]).run cfg
        [[.call .token, .call .refresh, .call .token]]
    s.requests.length = 1 ∧ s.finished = [(0, .token "old"),
      (1, .failed (.refreshFailed (.transport { message := "down" }))), (2, .token "old")] := by
  intro cfg s
  obtain ⟨request, -, -, hRun, -⟩ := calls_served_in_order cfg ⟨"R", "id", "s"⟩ rfl
    ⟨by decide, by decide, by decide⟩ ⟨1704110400000000, by decide, by decide⟩
    ⟨some "old", some ⟨1704114000000000, by decide, by decide⟩⟩ [.failed { message := "down" }]
  obtain ⟨-, hRequests, hFinished, -⟩ :=
    hRun [[.call .token, .call .refresh, .call .token]] (by simp [Move.IsCalm])
  constructor
  · rw [hRequests]
    rfl
  · rw [hFinished]
    rfl

/-- A call whose reply has a body of brackets that are only opened ends in the error of the reader, which is no failed
refresh. -/
theorem brackets_end_call :
    let key : RefreshKey := ⟨"R", "id", "s"⟩
    let cfg : Config := { source := .refreshable key, url := Grant.defaultUrl, margin := .minute }
    let reply : Reply := .response { status := 200, body := Json.brackets 100000 }
    let s := (start ⟨1704110400000000, by decide, by decide⟩ {} [reply]).play cfg
      [.act (.call .token), .turn, .turn, .turn, .turn, .turn]
    key.IsScalar ∧ reply.KeepsContract ∧ s.result? 0 = some (.failed (.tooDeep .array)) ∧
      ∀ cause, ¬Outcome.FailsWith (.failed (.tooDeep .array)) cause := by
  intro key cfg reply
  obtain ⟨-, hResult⟩ := result_of_first_call ⟨1704110400000000, by decide, by decide⟩ reply
  rw [settlement_of_brackets cfg.nesting _ _ _ _ (show cfg.nesting < 100000 by decide) (by decide)] at hResult
  exact ⟨⟨by decide, by decide, by decide⟩, trivial, hResult, not_failsWith_tooDeep .array⟩

end Bearer.Cache.State
