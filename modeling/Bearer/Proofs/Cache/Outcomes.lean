import Bearer.Proofs.Cache.Handover

/-! A call that has ended was cancelled, or needed no round trip, or received the outcome of one. That round trip was
still under way when the call was given the lock, so its answer arrived later. -/

namespace Bearer.Cache.State

variable {cfg : Config} {first s : State} {c : CallId} {t : TripId} {k : Caller} {o : Outcome}
  {moves : List Move} {m : Move}

/-- A move gives a call the lock, and leaves it with the lock. -/
def Obtains (cfg : Config) (c : CallId) (s : State) (m : Move) : Prop :=
  s.lock.holder ≠ some c ∧ (s.move cfg m).lock.holder = some c

theorem not_obtains_of_before {p : Phase} (h : Sound cfg s) (hPhase : s.phase? c = some p)
    (hHolds : p.holds = true) (m : Move) : ¬Obtains cfg c s m :=
  fun hObtains => hObtains.1 (h.coherent.holder_of_holds hPhase hHolds)

theorem not_obtains_of_after (h : Sound cfg (s.move cfg m))
    (hPhase : ∀ p, (s.move cfg m).phase? c = some p → p.holds = false) : ¬Obtains cfg c s m := by
  intro hObtains
  obtain ⟨k, hCall, hHolds⟩ := h.coherent.holder c hObtains.2 (by simp)
  rw [hPhase k.phase (phase?_eq_some.mpr ⟨k, hCall, rfl⟩)] at hHolds
  contradiction

/-- A call was given the lock, and whenever it was, a round trip was under way. -/
structure Joined (cfg : Config) (first : State) (moves : List Move) (c : CallId) (t : TripId) : Prop where
  obtained : first.Sometime cfg (Obtains cfg c) moves
  underWay : first.Always cfg (fun s m => Obtains cfg c s m → (s.move cfg m).UnderWay t) moves

theorem Joined.later (h : Joined cfg first moves c t) (hNot : ¬Obtains cfg c (first.play cfg moves) m) :
    Joined cfg first (moves ++ [m]) c t where
  obtained := sometime_concat.mpr (.inl h.obtained)
  underWay := always_concat.mpr ⟨h.underWay, fun hObtains => absurd hObtains hNot⟩

/-- A call has been handed the outcome of a round trip that was under way when it was given the lock. -/
structure Received (cfg : Config) (first : State) (moves : List Move) (c : CallId) (t : TripId)
    (o : Outcome) : Prop where
  joined : Joined cfg first moves c t
  handed : first.Sometime cfg (HandsOver cfg t c) moves
  trip : (first.play cfg moves).trips[t]? = some (.finished o)

theorem Received.later (h : Received cfg first moves c t o)
    (hNot : ¬Obtains cfg c (first.play cfg moves) m) : Received cfg first (moves ++ [m]) c t o where
  joined := h.joined.later hNot
  handed := sometime_concat.mpr (.inl h.handed)
  trip := by
    rw [play_append]
    exact finished_move m h.trip

/-- The result that a call can end with when it needs no round trip: its token is given, or is held and
good for longer than the margin, or it can not be told whether it is. A refresh asks for a token that is
given. -/
inductive Alone (cfg : Config) (s : State) (c : CallId) (call : Call) : Result → Prop where
  | given (token : Text) (hSource : cfg.source = .fixed token) : Alone cfg s c call (call.result c token)
  | held (token : Text) (expiry : Instant) (hCall : call ≠ .refresh)
      (hHeld : s.held = ⟨some token, some expiry⟩)
      (hFresh : s.clock.micros < expiry.micros - cfg.margin.micros) : Alone cfg s c call (call.result c token)
  | unknown (hCall : call ≠ .refresh) (hFresh : s.held.isFresh? s.clock cfg.margin = none) :
      Alone cfg s c call (.failed .outOfRange)

theorem Alone.ne_refreshFailed {call : Call} {r : Result} (h : Alone cfg s c call r) (cause : RefreshCause) :
    r ≠ .failed (.refreshFailed cause) := by
  cases h with
  | given token _ => cases call <;> exact Result.noConfusion
  | held token _ _ _ _ => cases call <;> exact Result.noConfusion
  | unknown _ _ => simp

/-- A move serves a call and ends it without a round trip. -/
def EndsAlone (cfg : Config) (c : CallId) (call : Call) (r : Result) (s : State) (m : Move) : Prop :=
  s.Unserved c ∧ (s.move cfg m).phase? c = some (.finished r) ∧ Alone cfg s c call r

/-- Where a call stands after a schedule, and what has become of it on the way. -/
inductive Course (cfg : Config) (first : State) (moves : List Move) (c : CallId) :
    Option Caller → Prop where
  | unserved (caller : Option Caller)
      (hEarly : ∀ k, caller = some k → k.phase = .starting ∨ k.phase = .queued)
      (hNever : ¬first.Sometime cfg (Obtains cfg c) moves) : Course cfg first moves c caller
  | waiting (k : Caller) (t : TripId) (hPhase : k.phase = .waiting t) (hJoined : Joined cfg first moves c t) :
      Course cfg first moves c (some k)
  | delivered (k : Caller) (t : TripId) (o : Outcome) (hPhase : k.phase = .delivered o)
      (hReceived : Received cfg first moves c t o) : Course cfg first moves c (some k)
  | cancelled (k : Caller) (hPhase : k.phase = .finished .cancelled) : Course cfg first moves c (some k)
  | alone (k : Caller) (r : Result) (hPhase : k.phase = .finished r)
      (hAlone : first.Sometime cfg (EndsAlone cfg c k.call r) moves) : Course cfg first moves c (some k)
  | received (k : Caller) (t : TripId) (o : Outcome) (hPhase : k.phase = .finished (resultOf c k.call o))
      (hReceived : Received cfg first moves c t o) : Course cfg first moves c (some k)

namespace Course

theorem never (h : Course cfg first moves c (some k)) (hEarly : k.phase = .starting ∨ k.phase = .queued) :
    ¬first.Sometime cfg (Obtains cfg c) moves := by
  cases h with
  | unserved _ _ hNever => exact hNever
  | waiting _ t hPhase _ => simp [hPhase] at hEarly
  | delivered _ t o hPhase _ => simp [hPhase] at hEarly
  | cancelled _ hPhase => simp [hPhase] at hEarly
  | alone _ r hPhase _ => simp [hPhase] at hEarly
  | received _ t o hPhase _ => simp [hPhase] at hEarly

theorem joined (h : Course cfg first moves c (some k)) (hWaiting : k.phase = .waiting t) :
    Joined cfg first moves c t := by
  cases h with
  | unserved _ hEarly _ => simpa [hWaiting] using hEarly k rfl
  | waiting _ u hPhase hJoined => exact Phase.waiting.inj (hWaiting.symm.trans hPhase) ▸ hJoined
  | delivered _ u o hPhase _ => simp [hWaiting] at hPhase
  | cancelled _ hPhase => simp [hWaiting] at hPhase
  | alone _ r hPhase _ => simp [hWaiting] at hPhase
  | received _ u o hPhase _ => simp [hWaiting] at hPhase

theorem taken (h : Course cfg first moves c (some k)) (hDelivered : k.phase = .delivered o) :
    ∃ t, Received cfg first moves c t o := by
  cases h with
  | unserved _ hEarly _ => simpa [hDelivered] using hEarly k rfl
  | waiting _ t hPhase _ => simp [hDelivered] at hPhase
  | delivered _ t o' hPhase hReceived =>
      exact ⟨t, Phase.delivered.inj (hDelivered.symm.trans hPhase) ▸ hReceived⟩
  | cancelled _ hPhase => simp [hDelivered] at hPhase
  | alone _ r hPhase _ => simp [hDelivered] at hPhase
  | received _ t o' hPhase _ => simp [hDelivered] at hPhase

/-- A call that was never given the lock and does not get it now has not been served. -/
theorem unserved_move (hSound : Sound cfg first) (hNever : ¬first.Sometime cfg (Obtains cfg c) moves)
    (hEarly : ∀ k, ((first.play cfg moves).move cfg m).calls[c]? = some k →
      k.phase = .starting ∨ k.phase = .queued) :
    Course cfg first (moves ++ [m]) c (((first.play cfg moves).move cfg m).calls[c]?) := by
  refine .unserved _ hEarly fun hSome => ?_
  rcases sometime_concat.mp hSome with hOlder | hObtains
  · exact hNever hOlder
  · refine not_obtains_of_after ((hSound.play moves).move m) (fun p hp => ?_) hObtains
    obtain ⟨k, hCall, rfl⟩ := phase?_eq_some.mp hp
    rcases hEarly k hCall with hStarting | hQueued
    · rw [hStarting, Phase.holds]
    · rw [hQueued, Phase.holds]

/-- A call that a move leaves in its phase keeps its course. -/
theorem keep (h : Course cfg first moves c (some k)) (hSound : Sound cfg first) {k' : Caller}
    (hOld : (first.play cfg moves).calls[c]? = some k)
    (hNew : ((first.play cfg moves).move cfg m).calls[c]? = some k') (hPhase : k'.phase = k.phase)
    (hCall : k'.call = k.call) : Course cfg first (moves ++ [m]) c (some k') := by
  have hBefore (hHolds : k.phase.holds = true) : ¬Obtains cfg c (first.play cfg moves) m :=
    not_obtains_of_before (hSound.play moves) (phase?_eq_some.mpr ⟨k, hOld, rfl⟩) hHolds m
  cases h with
  | unserved _ hEarly hNever =>
      rw [← hNew]
      refine unserved_move hSound hNever fun k₁ hk₁ => ?_
      rw [Option.some.inj (hk₁.symm.trans hNew), hPhase]
      exact hEarly k rfl
  | waiting _ t hWaiting hJoined =>
      exact .waiting k' t (hPhase.trans hWaiting) (hJoined.later (hBefore (by rw [hWaiting, Phase.holds])))
  | delivered _ t o hDelivered hReceived =>
      exact .delivered k' t o (hPhase.trans hDelivered)
        (hReceived.later (hBefore (by rw [hDelivered, Phase.holds])))
  | cancelled _ hCancelled => exact .cancelled k' (hPhase.trans hCancelled)
  | alone _ r hFinished hAlone =>
      exact .alone k' r (hPhase.trans hFinished) (sometime_concat.mpr (.inl (hCall ▸ hAlone)))
  | received _ t o hFinished hReceived =>
      refine .received k' t o ?_ (hReceived.later (not_obtains_of_after ((hSound.play moves).move m) ?_))
      · rw [hPhase, hFinished, hCall]
      · intro p hp
        obtain ⟨k₁, hCall₁, rfl⟩ := phase?_eq_some.mp hp
        rw [Option.some.inj (hCall₁.symm.trans hNew), hPhase, hFinished, Phase.holds]

/-- A call that is given the lock and has to wait joins a round trip under way. -/
theorem join (h : Course cfg first moves c (some k)) (hSound : Sound cfg first)
    (hOld : (first.play cfg moves).calls[c]? = some k) (hEarly : k.phase = .starting ∨ k.phase = .queued)
    {k' : Caller} (hNew : ((first.play cfg moves).move cfg m).calls[c]? = some k')
    (hWaiting : k'.phase = .waiting t) : Course cfg first (moves ++ [m]) c (some k') := by
  have hNow := hSound.play moves
  have hPhase : ((first.play cfg moves).move cfg m).phase? c = some (.waiting t) :=
    phase?_eq_some.mpr ⟨k', hNew, hWaiting⟩
  rcases waiting_move hNow hPhase with hBefore | ⟨_, hFree, hOpen⟩
  · rw [phase?, hOld, Option.map_some, Option.some.injEq] at hBefore
    simp [hBefore] at hEarly
  · have hObtains : Obtains cfg c (first.play cfg moves) m := by
      refine ⟨by simp [hFree], ?_⟩
      exact (hNow.move m).coherent.holder_of_holds hPhase rfl
    exact .waiting k' t hWaiting ⟨sometime_concat.mpr (.inr hObtains),
      always_concat.mpr ⟨always_of_never (h.never hEarly), fun _ => hOpen⟩⟩

/-- A call that a move does not touch keeps its course, also before it is made. -/
theorem untouched (h : Course cfg first moves c ((first.play cfg moves).calls[c]?)) (hSound : Sound cfg first)
    (hSame : ((first.play cfg moves).move cfg m).calls[c]? = (first.play cfg moves).calls[c]?) :
    Course cfg first (moves ++ [m]) c (((first.play cfg moves).move cfg m).calls[c]?) := by
  cases hOld : (first.play cfg moves).calls[c]? with
  | some k =>
      rw [hOld] at h hSame
      rw [hSame]
      exact h.keep hSound hOld hSame rfl rfl
  | none =>
      rw [hOld] at h hSame
      cases h with
      | unserved _ _ hNever =>
          refine unserved_move hSound hNever fun k hk => ?_
          rw [hSame] at hk
          contradiction

theorem act (h : Course cfg first moves c ((first.play cfg moves).calls[c]?)) (hSound : Sound cfg first)
    (a : Action) :
    Course cfg first (moves ++ [.act a]) c (((first.play cfg moves).move cfg (.act a)).calls[c]?) := by
  rcases caller_act (first.play cfg moves) a c with
    ⟨k, k', hOld, hNew, hSame⟩ | ⟨hOld, hNone | ⟨call, hNew⟩⟩
  · rw [hOld] at h
    rw [State.move, hNew]
    rcases hSame with rfl | rfl
    · exact h.keep hSound hOld hNew rfl rfl
    · exact h.keep hSound hOld hNew rfl rfl
  · exact h.untouched hSound (hNone.trans hOld.symm)
  · rw [hOld] at h
    cases h with
    | unserved _ _ hNever =>
        refine unserved_move hSound hNever fun k hk => ?_
        rw [State.move, hNew, Option.some.injEq] at hk
        exact .inl (by rw [← hk])

/-- The step of a call takes it further on its course. -/
theorem stepped (h : Course cfg first moves c (some k)) (hSound : Sound cfg first)
    (hOld : (first.play cfg moves).calls[c]? = some k) {p : Phase} {trips : List Trip}
    (hNew : ((first.play cfg moves).move cfg .turn).calls[c]? = some { k with phase := p })
    (hStep : CallStep cfg c k (first.play cfg moves) p trips) :
    Course cfg first (moves ++ [.turn]) c (some { k with phase := p }) := by
  have hAlone (hEarly : k.phase = .starting ∨ k.phase = .queued) {r : Result} (hp : p = .finished r)
      (hAlone : Alone cfg (first.play cfg moves) c k.call r) :
      Course cfg first (moves ++ [.turn]) c (some { k with phase := p }) :=
    .alone _ r hp (sometime_concat.mpr
      (.inr ⟨.of_caller hOld hEarly, phase?_eq_some.mpr ⟨_, hNew, hp⟩, hAlone⟩))
  cases hStep with
  | gaveUp _ => exact .cancelled _ rfl
  | fixed hStarting token hSource => exact hAlone (.inl hStarting) rfl (.given token hSource)
  | queued hStarting _ _ =>
      rw [← hNew]
      refine unserved_move hSound (h.never (.inl hStarting)) fun k' hk' => .inr ?_
      rw [← Option.some.inj (hNew.symm.trans hk')]
  | unknown hEarly hAsked hUnknown => exact hAlone hEarly rfl (.unknown hAsked hUnknown)
  | reused hEarly token expiry hAsked hHeld hFresh =>
      exact hAlone hEarly rfl (.held token expiry hAsked hHeld hFresh)
  | joined t hEarly _ _ _ => exact h.join hSound hOld hEarly hNew rfl
  | began hEarly _ _ => exact h.join hSound hOld hEarly hNew rfl
  | received o hDelivered _ =>
      obtain ⟨t, hReceived⟩ := h.taken hDelivered
      have hPhase := phase?_eq_some.mpr ⟨k, hOld, hDelivered⟩
      exact .received _ t o rfl
        (hReceived.later (not_obtains_of_before (hSound.play moves) hPhase rfl .turn))

/-- A call that waits is handed the outcome of the round trip that it joined. -/
theorem handed (h : Course cfg first moves c (some k)) (hSound : Sound cfg first)
    (hOld : (first.play cfg moves).calls[c]? = some k) (hWaiting : k.phase = .waiting t)
    (hTrip : (first.play cfg moves).trips[t]? = some (.finished o))
    (hNew : ((first.play cfg moves).move cfg .turn).calls[c]? = some { k with phase := .delivered o }) :
    Course cfg first (moves ++ [.turn]) c (some { k with phase := .delivered o }) := by
  have hPhase := phase?_eq_some.mpr ⟨k, hOld, hWaiting⟩
  have hHands : HandsOver cfg t c (first.play cfg moves) .turn :=
    ⟨hPhase, o, hTrip, phase?_eq_some.mpr ⟨_, hNew, rfl⟩⟩
  refine .delivered _ t o rfl ⟨?_, sometime_concat.mpr (.inr hHands), ?_⟩
  · exact (h.joined hWaiting).later (not_obtains_of_before (hSound.play moves) hPhase rfl .turn)
  · rw [play_append]
    exact finished_move .turn hTrip

theorem turn (h : Course cfg first moves c ((first.play cfg moves).calls[c]?)) (hSound : Sound cfg first) :
    Course cfg first (moves ++ [.turn]) c (((first.play cfg moves).move cfg .turn).calls[c]?) := by
  cases calls_effect (hSound.play moves).coherent with
  | quiet hCalls _ => exact h.untouched hSound (congrArg (·[c]?) hCalls)
  | stepped d k _ p trips _ hCall hCalls _ _ hStep =>
      by_cases hcd : c = d
      · subst hcd
        have hNew : ((first.play cfg moves).move cfg .turn).calls[c]? = some { k with phase := p } := by
          rw [State.move, hCalls, calls_setPhase_self hCall]
        rw [hCall] at h
        rw [hNew]
        exact h.stepped hSound hCall hNew hStep
      · exact h.untouched hSound (by rw [State.move, hCalls, calls_setPhase_ne hcd])
  | delivered t d call _ o _ hCall hTrip hCalls _ =>
      by_cases hcd : c = d
      · subst hcd
        have hNew : ((first.play cfg moves).move cfg .turn).calls[c]? = some ⟨call, .delivered o, false⟩ := by
          rw [State.move, hCalls, calls_setPhase_self hCall]
        rw [hCall] at h
        rw [hNew]
        exact h.handed hSound hCall rfl hTrip hNew
      · exact h.untouched hSound (by rw [State.move, hCalls, calls_setPhase_ne hcd])

/-- The course of a call that had not been served when the schedule began. -/
theorem play (hSound : Sound cfg first) (hUnserved : first.Unserved c) (moves : List Move) :
    Course cfg first moves c ((first.play cfg moves).calls[c]?) := by
  induction moves using List.reverseRecOn with
  | nil =>
      refine .unserved _ (fun k hk => ?_) id
      exact hUnserved k.phase (phase?_eq_some.mpr ⟨k, hk, rfl⟩)
  | append_singleton moves m ih =>
      have hNext : first.play cfg (moves ++ [m]) = (first.play cfg moves).move cfg m :=
        play_append first moves [m]
      rw [hNext]
      cases m with
      | act a => exact ih.act hSound a
      | turn => exact ih.turn hSound

/-- What a call ends with is cancelled, its own, or the outcome of a round trip that it received. -/
theorem ended (h : Course cfg first moves c (some k)) {r : Result} (hEnd : k.phase = .finished r) :
    r = .cancelled ∨ first.Sometime cfg (EndsAlone cfg c k.call r) moves ∨
      ∃ t o, r = resultOf c k.call o ∧ Received cfg first moves c t o := by
  cases h with
  | unserved _ hEarly _ => simpa [hEnd] using hEarly k rfl
  | waiting _ t hPhase _ => simp [hEnd] at hPhase
  | delivered _ t o hPhase _ => simp [hEnd] at hPhase
  | cancelled _ hPhase => exact .inl (Phase.finished.inj (hEnd.symm.trans hPhase))
  | alone _ r' hPhase hAlone => exact .inr (.inl (Phase.finished.inj (hEnd.symm.trans hPhase) ▸ hAlone))
  | received _ t o hPhase hReceived =>
      exact .inr (.inr ⟨t, o, Phase.finished.inj (hEnd.symm.trans hPhase), hReceived⟩)

end Course

/-- A round trip that is under way later has not finished yet. -/
theorem not_finished_of_sometime
    (h : first.Sometime cfg (fun s m => (s.move cfg m).UnderWay t) moves) :
    first.trips[t]? ≠ some (.finished o) := by
  intro hTrip
  induction moves generalizing first with
  | nil => exact h
  | cons m moves ih =>
      have hNext : (first.move cfg m).trips[t]? = some (.finished o) := finished_move m hTrip
      rcases h with hOpen | hLater
      · exact hOpen.not_finished hNext
      · exact ih hLater hNext

/-- A move takes the answer to the request of a round trip, and that answer grants a token. -/
structure Brings (cfg : Config) (t : TripId) (token : Text) (s : State) (m : Move) : Prop where
  finishes : Finishes cfg t (.token token) s m
  granted : ∃ a g expiry, s.answer? cfg m = some a ∧ a.reply.grant? cfg.nesting = some g ∧ g.token = token ∧
    g.expiry? a.now = some expiry

/-- A token that a call received was granted by an answer that its round trip took since the call was
unserved. -/
theorem Received.brought {token : Text} (h : Received cfg first moves c t (.token token)) :
    first.Sometime cfg (Brings cfg t token) moves := by
  have hOpen := h.joined.obtained.and_always h.joined.underWay
  have hSome := (finishes_of_play h.trip).resolve_left (not_finished_of_sometime hOpen)
  refine hSome.imp fun s m hFinishes => ⟨hFinishes, ?_⟩
  have hEnds := hFinishes.ends
  generalize hToken : Outcome.token token = outcome at hEnds
  cases hEnds with
  | refused _ _ _ _ _ => contradiction
  | answered key a _ hAnswer =>
      obtain ⟨g, expiry, hGrant, hSame, hExpiry, _⟩ := grant_of_token cfg.nesting cfg.margin key s.held hToken.symm
      exact ⟨a, g, expiry, hAnswer, hGrant, hSame, hExpiry⟩

theorem eq_failed_of_resultOf {call : Call} {e : CallError} (h : resultOf c call o = .failed e) :
    o = .failed e := by
  cases o with
  | token token => cases call <;> cases h
  | failed e' => rw [Result.failed.inj h]
  | cancelled => cases h

theorem eq_token_of_resultOf {token : Text} (h : resultOf c .refresh o = .token token) : o = .token token := by
  cases o with
  | token token' => rw [Result.token.inj h]
  | failed e => cases h
  | cancelled => cases h

/-- The token of a forced refresh was given, or brought by a round trip after the call was made. -/
theorem refreshed_token (hSound : Sound cfg first) (hUnserved : first.Unserved c) (moves : List Move)
    (hCall : (first.play cfg moves).calls[c]? = some k) (hRefresh : k.call = .refresh) {token : Text}
    (hEnd : k.phase = .finished (.token token)) : cfg.source = .fixed token ∨
      ∃ t, Received cfg first moves c t (.token token) ∧ first.Sometime cfg (Brings cfg t token) moves := by
  have hCourse := hCall ▸ Course.play hSound hUnserved moves
  rcases hCourse.ended hEnd with hCancelled | hAlone | ⟨t, o, hResult, hReceived⟩
  · contradiction
  · refine .inl (hAlone.elim fun s m hEnds => ?_)
    obtain ⟨_, _, hOwn⟩ := hEnds
    rw [hRefresh] at hOwn
    generalize hToken : Result.token token = r at hOwn
    cases hOwn with
    | given token' hSource => exact Result.token.inj hToken ▸ hSource
    | held _ _ hOther _ _ => exact absurd rfl hOther
    | unknown _ _ => contradiction
  · rw [hRefresh] at hResult
    have hToken := eq_token_of_resultOf hResult.symm
    subst hToken
    exact .inr ⟨t, hReceived, hReceived.brought⟩

/-- Outcomes are never replayed and never retried. After any schedule of calls, cancellations, clock
changes, answers of any kind and turns: (a) a call that has ended was cancelled, or took a token that was
given or held, or ended with the outcome of a round trip that was still under way when the call was given
the lock; so a token that a forced refresh returns was granted by an answer that its round trip took after
the call was made. (b) The outcome of a round trip is received by one call at most, a call receives one
outcome at most, and every call that fails because a refresh failed received that from a round trip that
failed so. (c) Every round trip is begun by a call, no call begins two, and there are no more requests than
round trips and no more round trips than calls. -/
theorem outcomes_never_replayed (cfg : Config) (clock : Instant) (held : HeldToken) (replies : List Reply)
    (moves : List Move) :
    let first := start clock held replies
    let s := first.play cfg moves
    ((∀ c k r, s.calls[c]? = some k → k.phase = .finished r → r = .cancelled ∨
          first.Sometime cfg (EndsAlone cfg c k.call r) moves ∨
            ∃ t o, r = resultOf c k.call o ∧ Received cfg first moves c t o) ∧
        ∀ before later c k token, moves = before ++ later → (first.play cfg before).calls.length ≤ c →
          s.calls[c]? = some k → k.call = .refresh → k.phase = .finished (.token token) →
          cfg.source = .fixed token ∨ ∃ t, Received cfg (first.play cfg before) later c t (.token token) ∧
            (first.play cfg before).Sometime cfg (Brings cfg t token) later) ∧
      ((∀ t u c d o o', Received cfg first moves c t o → Received cfg first moves d u o' →
          (t = u ↔ c = d)) ∧
        ∀ c k cause, s.calls[c]? = some k → k.phase = .finished (.failed (.refreshFailed cause)) →
          ∃ t, Received cfg first moves c t (.failed (.refreshFailed cause))) ∧
      (∀ t, t < s.trips.length → ∃ c, first.Sometime cfg (Begins cfg t c) moves) ∧
      (∀ c t u, first.Sometime cfg (Begins cfg t c) moves → first.Sometime cfg (Begins cfg u c) moves →
        t = u) ∧
      s.requests.length ≤ s.trips.length ∧ s.trips.length ≤ s.calls.length := by
  intro first s
  have hSound : Sound cfg first := .start clock held replies
  have hEnded : ∀ c k r, s.calls[c]? = some k → k.phase = .finished r → r = .cancelled ∨
      first.Sometime cfg (EndsAlone cfg c k.call r) moves ∨
        ∃ t o, r = resultOf c k.call o ∧ Received cfg first moves c t o := by
    intro c k r hCall hEnd
    have hCourse := Course.play hSound (.of_length (Nat.zero_le c)) moves
    rw [show (first.play cfg moves).calls[c]? = some k from hCall] at hCourse
    exact hCourse.ended hEnd
  refine ⟨⟨hEnded, ?_⟩, ⟨?_, ?_⟩, ?_, ?_, requests_le_trips cfg clock held replies moves,
    trips_le_calls hSound rfl moves⟩
  · rintro before later c k token rfl hBound hCall hRefresh hEnd
    refine refreshed_token (hSound.play before) (.of_length hBound) later ?_ hRefresh hEnd
    rw [← play_append]
    exact hCall
  · rintro t u c d o o' hc hd
    constructor
    · rintro rfl
      exact handsOver_unique_call hSound hc.handed hd.handed
    · rintro rfl
      exact handsOver_unique_trip hSound hc.handed hd.handed
  · intro c k cause hCall hEnd
    rcases hEnded c k _ hCall hEnd with hCancelled | hAlone | ⟨t, o, hResult, hReceived⟩
    · contradiction
    · exact (hAlone.elim fun u m hEnds => hEnds.2.2.ne_refreshFailed cause rfl).elim
    · exact ⟨t, eq_failed_of_resultOf hResult.symm ▸ hReceived⟩
  · exact fun t ht => begins_of_trip hSound (Nat.zero_le t) ht
  · exact fun c t u ht hu => begins_unique hSound ht hu

/-- The caller of the first round trip has been cancelled when it fails. A refresh that is asked for
afterwards begins a second round trip, and ends with the outcome of that one. -/
example :
    let cfg : Config :=
      { source := .refreshable ⟨"R", "id", "s"⟩, url := Grant.defaultUrl, margin := .minute, gated := true }
    let s := (start ⟨1704110400000000, by decide, by decide⟩ {}
      [.response { status := 500 }, .response { status := 503 }]).run cfg
      [[.call .token], [.cancel 0], [.release], [.call .refresh], [.release]]
    s.result? 0 = some .cancelled ∧ s.requests.length = 2 ∧ s.trips.length = 2 ∧
      s.result? 1 = some (.failed (.refreshFailed (.endpoint 503 []))) := by
  decide +kernel

end Bearer.Cache.State
