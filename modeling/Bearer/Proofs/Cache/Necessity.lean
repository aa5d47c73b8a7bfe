import Bearer.Proofs.Cache.Outcomes
import Bearer.Proofs.Cache.Trace

/-! A call that asks for a good token and is given the lock takes the stored token if that is fresh, unless a round
trip is under way that it can join. -/

namespace Bearer.Cache

/-- A held token that is not fresh does not become fresh later. -/
theorem HeldToken.stale_of_le {held : HeldToken} {now later : Instant} {margin : Duration}
    (hStale : held.isFresh? now margin = some false) (hLater : now.micros ≤ later.micros) :
    held.isFresh? later margin = some false := by
  unfold HeldToken.isFresh? at hStale ⊢
  split
  · next token expiry hToken hExpiry =>
      rw [hToken, hExpiry] at hStale
      obtain ⟨latest, hLatest, hNow⟩ := Option.map_eq_some_iff.mp hStale
      rw [hLatest, Option.map_some, Option.some.injEq, decide_eq_false_iff_not]
      have hNotNow := of_decide_eq_false hNow
      omega
  · rfl

/-- The clock does not go back. -/
def Move.IsForward : Move → Prop
  | .act (.advance micros) => 0 ≤ micros
  | _ => True

namespace State

variable {cfg : Config} {first s s' : State} {c d : CallId} {t : TripId} {k : Caller} {moves : List Move}
  {m : Move}

theorem clock_move (hForward : m.IsForward) : s.clock.micros ≤ (s.move cfg m).clock.micros := by
  cases m with
  | turn => exact Int.le_of_eq (congrArg Instant.micros (clock_turn cfg s)).symm
  | act a =>
      rw [State.move]
      cases a with
      | advance micros =>
          rw [act_advance_eq]
          cases hClock : (Duration.ofMicros? micros).bind s.clock.add? with
          | none => exact Int.le_refl _
          | some clock =>
              obtain ⟨d, hDuration, hAdd⟩ := Option.bind_eq_some_iff.mp hClock
              have hMicros := Instant.ofMicros?_eq_some.mp hAdd
              have hSpan := Duration.ofMicros?_eq_some.mp hDuration
              have hNonneg : 0 ≤ micros := hForward
              change s.clock.micros ≤ clock.micros
              omega
      | cancel c => exact Int.le_of_eq (congrArg Instant.micros (cancel_frame c s).1.clock).symm
      | release =>
          rcases release_cases s with ⟨hSame, -⟩ | ⟨t, -, hRelease⟩
          · rw [act, hSame]
          · rw [act, hRelease]
            exact Int.le_refl _
      | call call => exact Int.le_refl _
      | supply replies => exact Int.le_refl _
      | rest => exact Int.le_refl _

theorem clock_play (hForward : ∀ m ∈ moves, m.IsForward) :
    s.clock.micros ≤ (s.play cfg moves).clock.micros := by
  induction moves generalizing s with
  | nil => exact Int.le_refl _
  | cons m moves ih =>
      have hNow : s.clock.micros ≤ (s.move cfg m).clock.micros := clock_move (hForward m List.mem_cons_self)
      exact Int.le_trans hNow (ih fun m' hm' => hForward m' (List.mem_cons_of_mem m hm'))

/-- A move gives a call the lock, as the trace tells. -/
def Acquires (cfg : Config) (c : CallId) (s : State) (m : Move) : Prop :=
  ∃ events, (s.move cfg m).trace = s.trace ++ events ∧ .acquired c ∈ events

theorem holder_act (s : State) (a : Action) : (s.act a).lock.holder = s.lock.holder := by
  cases a with
  | cancel c =>
      rw [act, cancel]
      split
      · rfl
      · dsimp only
        split
        · rfl
        · split <;> rfl
        · split <;> rfl
        · rfl
        · rfl
  | advance micros =>
      obtain ⟨clock, hAct⟩ := act_advance s micros
      rw [hAct]
  | release =>
      rw [act, release]
      split <;> rfl
  | call call => rfl
  | supply replies => rfl
  | rest => rfl

/-- A call that holds the lock and did not before is told to have been given it. -/
theorem Obtains.acquires (h : Obtains cfg c s m) : Acquires cfg c s m := by
  obtain ⟨hBefore, hAfter⟩ := h
  cases m with
  | turn =>
      obtain ⟨events, hTrace, -, hHolder⟩ := continues_turn cfg s
      exact ⟨events, hTrace, (hHolder c hAfter).resolve_left hBefore⟩
  | act a =>
      rw [State.move, holder_act] at hAfter
      exact absurd hAfter hBefore

theorem Entry.not_acquired {call : Call} {events : List Event} (h : Entry cfg s d call s' events) :
    .acquired c ∉ events := by
  cases h with
  | unknown _ _ _ _ _ => simp
  | reused _ _ _ _ _ => simp
  | joined _ _ _ _ => simp
  | began _ _ _ _ => simp

/-- The call that is told to have been given the lock takes its first step or leaves the queue. -/
theorem Tells.entry {events : List Event} (h : Tells cfg s s' events) (hTold : .acquired c ∈ events) :
    ∃ k rest, s.calls[c]? = some k ∧ (k.phase = .starting ∨ k.phase = .queued) ∧
      Entry cfg s c k.call s' rest := by
  cases h with
  | call _ hCall =>
      cases hCall with
      | nothing _ => contradiction
      | ended d r _ => simp at hTold
      | entered d k rest hCall hPhase hEntry =>
          rcases List.mem_cons.mp hTold with hSame | hLater
          · cases hSame
            exact ⟨k, rest, hCall, hPhase, hEntry⟩
          · exact absurd hLater hEntry.not_acquired
  | sent _ _ _ _ _ _ _ => simp at hTold
  | refused _ _ _ _ _ _ _ => simp at hTold
  | answeredAtOnce _ _ _ _ _ _ _ _ _ => simp at hTold
  | answered _ _ _ _ _ _ _ => simp at hTold

/-- What a call does that is given the lock. -/
theorem Acquires.entry (h : Acquires cfg c s m) : ∃ k events, s.calls[c]? = some k ∧
    (k.phase = .starting ∨ k.phase = .queued) ∧ Entry cfg s c k.call (s.move cfg m) events := by
  obtain ⟨told, hTrace, hTold⟩ := h
  cases m with
  | act a =>
      rw [State.move, trace_act] at hTrace
      rw [List.append_right_eq_self.mp hTrace.symm] at hTold
      contradiction
  | turn =>
      obtain ⟨events, hEvents, hTells, -⟩ := continues_turn cfg s
      rw [State.move, hEvents] at hTrace
      rw [← List.append_cancel_left hTrace] at hTold
      exact hTells.entry hTold

/-- A call that begins a round trip asks for a new token, or the stored one is not fresh. -/
theorem Begins.needs (h : Begins cfg t c s m) (hSound : Sound cfg s) : ∃ k, s.calls[c]? = some k ∧
    (k.call = .refresh ∨ s.held.isFresh? s.clock cfg.margin = some false) := by
  obtain ⟨hLength, hMore, hUnserved, hWaiting⟩ := h
  have hObtains : Obtains cfg c s m := by
    refine ⟨fun hHolder => ?_, (hSound.move m).coherent.holder_of_holds hWaiting rfl⟩
    obtain ⟨k, hCall, hHolds⟩ := hSound.coherent.holder c hHolder (by simp)
    rcases hUnserved k.phase (phase?_eq_some.mpr ⟨k, hCall, rfl⟩) with hStarting | hQueued
    · rw [hStarting] at hHolds
      contradiction
    · rw [hQueued] at hHolds
      contradiction
  obtain ⟨k, events, hCall, -, hEntry⟩ := hObtains.acquires.entry
  refine ⟨k, hCall, ?_⟩
  have hChanged : (s.move cfg m).trips ≠ s.trips := fun hSame => by
    rw [hSame] at hMore
    omega
  cases hEntry with
  | began _ hNeed _ _ => exact hNeed
  | unknown _ _ _ hTrips _ => exact absurd hTrips hChanged
  | reused _ _ _ hTrips _ => exact absurd hTrips hChanged
  | joined _ _ hTrips _ => exact absurd hTrips hChanged

/-- The call that is given the lock can join a round trip that was begun by a call which has been cancelled
since. Unless the clock has gone back since the round trip was begun, that call was a forced refresh, or the stored
token is not fresh. -/
structure LeftBehind (cfg : Config) (first : State) (before : List Move) (t : TripId) (d : CallId) : Prop where
  joinable : (first.play cfg before).joinable? = some t
  cancelled : (first.play cfg before).phase? d = some (.finished .cancelled)
  begun : ∃ earlier m since, before = earlier ++ m :: since ∧ Begins cfg t d (first.play cfg earlier) m ∧
    ((∀ m' ∈ since, m'.IsForward) →
      (∃ k, (first.play cfg before).calls[d]? = some k ∧ k.call = .refresh) ∨
        (first.play cfg before).held.isFresh? (first.play cfg before).clock cfg.margin = some false)

/-- Beginning a round trip leaves the store alone. -/
theorem Begins.store (h : Begins cfg t c s m) : SameStore s (s.move cfg m) := by
  obtain ⟨hLength, hMore, -, -⟩ := h
  have hChanged (u : TripId) (new : Trip) : (s.move cfg m).trips ≠ s.trips.set u new := fun hSet => by
    rw [hSet, List.length_set] at hMore
    omega
  cases m with
  | act a =>
      obtain ⟨-, hSame | ⟨u, -, hSet⟩⟩ := act_effect s a
      · rw [State.move, hSame] at hMore
        omega
      · exact absurd hSet (hChanged u _)
  | turn =>
      have hEffect := turn_effect cfg s
      generalize s.answer? cfg .turn = answer at hEffect
      cases hEffect with
      | quiet hStore _ => exact hStore
      | begun hStore _ _ => exact hStore
      | sent u _ _ hSet => exact absurd hSet (hChanged u _)
      | refused u _ _ _ _ _ _ hSet => exact absurd hSet (hChanged u _)
      | answered u _ _ _ _ _ _ _ _ _ _ _ hSet => exact absurd hSet (hChanged u _)

/-- No move changes what a call asks for. -/
theorem call_move (cfg : Config) (m : Move) (hCall : s.calls[c]? = some k) :
    ∃ k', (s.move cfg m).calls[c]? = some k' ∧ k'.call = k.call := by
  obtain ⟨k', hCall', hEffect⟩ := caller_effect cfg m hCall
  refine ⟨k', hCall', ?_⟩
  cases hEffect with
  | quiet hSame => rw [hSame]
  | flagged hSame => rw [hSame]
  | served _ _ hSame => rw [hSame]
  | gaveUp _ _ _ hSame => rw [hSame]
  | reached _ _ _ _ _ hSame => rw [hSame]
  | ended _ _ hSame => rw [hSame]

theorem underWay_of_joinable (h : Sound cfg s) (hJoin : s.joinable? = some t) : s.UnderWay t := by
  obtain ⟨hPending, hOpen⟩ := Option.filter_eq_some_iff.mp hJoin
  have hBound := (h.coherent.pending t hPending).1
  refine ⟨_, List.getElem?_eq_getElem hBound, ?_⟩
  simpa [isFinished, List.getElem?_eq_getElem hBound] using hOpen

/-- A call that is given the lock while a round trip can be joined finds it free. -/
theorem Acquires.free (h : Acquires cfg c s m) (hSound : Sound cfg s) (hJoin : s.joinable? = some t) :
    s.lock.holder = none := by
  obtain ⟨k, events, hCall, hEarly, hEntry⟩ := h.entry
  have hNotWaiting : s.phase? c ≠ some (.waiting t) := fun hWaiting => by
    rw [phase?, hCall, Option.map_some, Option.some.injEq] at hWaiting
    simp [hWaiting] at hEarly
  cases hEntry with
  | joined u hSame _ hWaits =>
      have hut : u = t := Option.some.inj (hSame.symm.trans hJoin)
      subst hut
      exact ((waiting_move hSound hWaits).resolve_left hNotWaiting).2.1
  | unknown _ hNone _ _ _ => rw [hNone] at hJoin; contradiction
  | reused _ hNone _ _ _ => rw [hNone] at hJoin; contradiction
  | began hNone _ _ _ => rw [hNone] at hJoin; contradiction

/-- Until a round trip has finished, the stored token stays as it was when the round trip was begun. -/
theorem stale_of_begins {before later : List Move} (hSound : Sound cfg first)
    (hBegins : Begins cfg t d (first.play cfg before) m)
    (hOpen : (first.play cfg (before ++ m :: later)).UnderWay t) (hForward : ∀ m' ∈ later, m'.IsForward)
    (hStale : (first.play cfg before).held.isFresh? (first.play cfg before).clock cfg.margin = some false) :
    (first.play cfg (before ++ m :: later)).held.isFresh? (first.play cfg (before ++ m :: later)).clock
      cfg.margin = some false := by
  rw [play_append, play_cons] at hOpen ⊢
  obtain ⟨hClock, -, hHeld⟩ := hBegins.store
  have hTrip : ((first.play cfg before).move cfg m).trips[t]? = some _ :=
    List.getElem?_eq_getElem (by rw [hBegins.2.1]; exact Nat.lt_succ_self t)
  rw [held_of_underWay ((hSound.play before).flight.move m) (UnderWay.of_play hTrip hOpen) hOpen, hHeld]
  refine HeldToken.stale_of_le hStale ?_
  rw [← hClock]
  exact clock_play hForward

/-- The round trip that a call joins which is given the lock was left behind. -/
theorem Acquires.leftBehind {before : List Move} (h : Acquires cfg c (first.play cfg before) m)
    (hSound : Sound cfg first) (hNone : first.trips = []) (hJoin : (first.play cfg before).joinable? = some t) :
    ∃ d, LeftBehind cfg first before t d := by
  have hOpen := underWay_of_joinable (hSound.play before) hJoin
  have hFree := h.free (hSound.play before) hJoin
  have hBound : t < (first.play cfg before).trips.length := by
    obtain ⟨trip, hTrip, -⟩ := id hOpen
    exact (List.getElem?_eq_some_iff.mp hTrip).1
  obtain ⟨d, hBegun⟩ := begins_of_trip hSound (by simp [hNone]) hBound
  obtain ⟨earlier, m', later, rfl, hBegins⟩ := hBegun.exists_moment
  obtain ⟨k₀, hCall₀, hNeed⟩ := hBegins.needs (hSound.play earlier)
  obtain ⟨k₁, hCall₁, hSame₁⟩ := call_move cfg m' hCall₀
  obtain ⟨k₁', hCall₁', hWaiting⟩ := phase?_eq_some.mp hBegins.2.2.2
  obtain rfl := Option.some.inj (hCall₁'.symm.trans hCall₁)
  obtain ⟨k₂, hCall₂, hSame₂, hAwaited⟩ := (Awaited.waiting hWaiting).play cfg hCall₁ later
  rw [← play_cons, ← play_append] at hCall₂ hAwaited
  refine ⟨d, hJoin, ?_, earlier, m', later, rfl, hBegins, fun hForward => ?_⟩
  · cases hAwaited with
    | waiting hStill =>
        have hHolder := (hSound.play _).coherent.holder_of_holds (phase?_eq_some.mpr ⟨k₂, hCall₂, hStill⟩) rfl
        rw [hFree] at hHolder
        contradiction
    | delivered o _ hTrip => exact absurd hTrip hOpen.not_finished
    | cancelled hPhase _ => exact phase?_eq_some.mpr ⟨k₂, hCall₂, hPhase⟩
    | ended o _ hTrip => exact absurd hTrip hOpen.not_finished
  · rcases hNeed with hRefresh | hStale
    · exact .inl ⟨k₂, hCall₂, hSame₂.trans (hSame₁.trans hRefresh)⟩
    · exact .inr (stale_of_begins hSound hBegins hOpen hForward hStale)

/-- A call that has ended stays as it is. -/
theorem phase?_of_finished (cfg : Config) {r : Result} (hEnd : s.phase? c = some (.finished r)) (moves : List Move) :
    (s.play cfg moves).phase? c = some (.finished r) := by
  refine play_invariant (P := fun s => s.phase? c = some (.finished r)) hEnd (fun s m hEnd => ?_) moves
  obtain ⟨k, hCall, hPhase⟩ := phase?_eq_some.mp hEnd
  obtain ⟨k', hCall', hEffect⟩ := caller_effect cfg m hCall
  refine phase?_eq_some.mpr ⟨k', hCall', ?_⟩
  cases hEffect with
  | quiet hSame => rw [hSame, hPhase]
  | flagged hSame => rw [hSame, hPhase]
  | served hEarly _ _ => simp [hPhase] at hEarly
  | gaveUp _ hOther _ _ => simp [hPhase] at hOther
  | reached _ _ hOther _ _ _ => simp [hPhase] at hOther
  | ended _ hOther _ => simp [hPhase] at hOther

theorem call_play (cfg : Config) (hCall : s.calls[c]? = some k) (moves : List Move) :
    ∃ k', (s.play cfg moves).calls[c]? = some k' ∧ k'.call = k.call := by
  induction moves generalizing s k with
  | nil => exact ⟨k, hCall, rfl⟩
  | cons m moves ih =>
      obtain ⟨next, hNext, hSame⟩ := call_move cfg m hCall
      obtain ⟨k', hCall', hSame'⟩ := ih hNext
      exact ⟨k', hCall', hSame'.trans hSame⟩

/-- What has become of a call that was given the lock in an earlier state. -/
inductive Fate (cfg : Config) (given s : State) (c : CallId) (k : Caller) : Prop where
  | unknown (hCall : k.call ≠ .refresh) (hJoin : given.joinable? = none)
      (hFresh : given.held.isFresh? given.clock cfg.margin = none)
      (hPhase : k.phase = .finished (.failed .outOfRange)) : Fate cfg given s c k
  | reused (hCall : k.call ≠ .refresh) (hJoin : given.joinable? = none)
      (hFresh : given.held.isFresh? given.clock cfg.margin = some true)
      (hPhase : k.phase = .finished (k.call.result c (given.held.token.getD []))) : Fate cfg given s c k
  | joined (t : TripId) (hJoin : given.joinable? = some t) (hAwaited : Awaited s c t k) : Fate cfg given s c k
  | began (hJoin : given.joinable? = none)
      (hNeed : k.call = .refresh ∨ given.held.isFresh? given.clock cfg.margin = some false)
      (hAwaited : Awaited s c given.trips.length k) : Fate cfg given s c k

theorem Acquires.fate (h : Acquires cfg c s m) (later : List Move)
    (hCall : (s.play cfg (m :: later)).calls[c]? = some k) : Fate cfg s (s.play cfg (m :: later)) c k := by
  obtain ⟨k₀, events, hCall₀, -, hEntry⟩ := h.entry
  obtain ⟨k', hCall', hSame⟩ := call_play cfg hCall₀ (m :: later)
  obtain rfl := Option.some.inj (hCall'.symm.trans hCall)
  have hEnded {r : Result} (hEnd : (s.move cfg m).phase? c = some (.finished r)) : k'.phase = .finished r := by
    obtain ⟨k₁, hCall₁, hPhase⟩ := phase?_eq_some.mp (phase?_of_finished cfg hEnd later)
    rw [← hPhase]
    exact congrArg Caller.phase (Option.some.inj (hCall'.symm.trans hCall₁))
  have hAwaited {t : TripId} (hWaits : (s.move cfg m).phase? c = some (.waiting t)) :
      Awaited (s.play cfg (m :: later)) c t k' := by
    obtain ⟨k₁, hCall₁, hWaiting⟩ := phase?_eq_some.mp hWaits
    obtain ⟨k₂, hCall₂, -, hAwaited⟩ := (Awaited.waiting hWaiting).play cfg hCall₁ later
    rw [Option.some.inj (hCall'.symm.trans hCall₂)]
    exact hAwaited
  rw [← hSame] at hEntry
  cases hEntry with
  | unknown hAsked hJoin hFresh _ hEnd => exact .unknown hAsked hJoin hFresh (hEnded hEnd)
  | reused hAsked hJoin hFresh _ hEnd => exact .reused hAsked hJoin hFresh (hEnded hEnd)
  | joined t hJoin _ hWaits => exact .joined t hJoin (hAwaited hWaits)
  | began hJoin hNeed _ hWaits => exact .began hJoin hNeed (hAwaited hWaits)

/-- A call that fails because a refresh failed has received the failure of the round trip that it waited for. -/
theorem Awaited.failed {cause : RefreshCause} (h : Awaited s c t k)
    (hEnd : k.phase = .finished (.failed (.refreshFailed cause))) :
    s.trips[t]? = some (.finished (.failed (.refreshFailed cause))) := by
  cases h with
  | waiting hPhase => simp [hEnd] at hPhase
  | delivered _ hPhase _ => simp [hEnd] at hPhase
  | cancelled hPhase _ => simp [hEnd] at hPhase
  | ended o hPhase hTrip =>
      rw [hTrip, eq_failed_of_resultOf (Phase.finished.inj (hPhase.symm.trans hEnd))]

theorem token_of_fresh {margin : Duration} {held : HeldToken} {now : Instant}
    (hFresh : held.isFresh? now margin = some true) : ∃ token, held.token = some token := by
  unfold HeldToken.isFresh? at hFresh
  split at hFresh
  · next token _ hToken _ => exact ⟨token, hToken⟩
  · contradiction

/-- A call fails because a refresh failed only if a refresh was needed, or was left behind. A call that has
failed so was given the lock before. A call for a good token, or for a signature, that is given the lock
fails so only if the stored token was not fresh at that moment, or if it joined the round trip of a call that
had been cancelled. If the stored token was fresh at that moment, the call has ended with it at once, or it
joined such a round trip and ends with the outcome of that one unless it is cancelled. -/
theorem failure_needs_refresh (cfg : Config) (clock : Instant) (held : HeldToken) (replies : List Reply) :
    let first := start clock held replies
    (∀ moves c k cause, (first.play cfg moves).calls[c]? = some k →
      k.phase = .finished (.failed (.refreshFailed cause)) → first.Sometime cfg (Acquires cfg c) moves) ∧
    ∀ before m later c k,
      let given := first.play cfg before
      let s := given.play cfg (m :: later)
      Acquires cfg c given m → s.calls[c]? = some k → k.call ≠ .refresh →
      (∀ cause, k.phase = .finished (.failed (.refreshFailed cause)) →
        given.held.isFresh? given.clock cfg.margin = some false ∨
          ∃ t d, LeftBehind cfg first before t d ∧
            s.trips[t]? = some (.finished (.failed (.refreshFailed cause)))) ∧
      (given.held.isFresh? given.clock cfg.margin = some true →
        (∃ token, given.held.token = some token ∧ k.phase = .finished (k.call.result c token)) ∨
          ∃ t d, LeftBehind cfg first before t d ∧ Awaited s c t k) := by
  intro first
  have hSound : Sound cfg first := .start clock held replies
  constructor
  · intro moves c k cause hCall hEnd
    have hCourse := Course.play hSound (.of_length (Nat.zero_le c)) moves
    rw [hCall] at hCourse
    rcases hCourse.ended hEnd with hCancelled | hAlone | ⟨t, o, -, hReceived⟩
    · contradiction
    · exact (hAlone.elim fun u m hEnds => hEnds.2.2.ne_refreshFailed cause rfl).elim
    · exact hReceived.joined.obtained.imp fun u m hObtains => hObtains.acquires
  · intro before m later c k given s hAcquires hCall hAsked
    cases hAcquires.fate later hCall with
    | unknown _ _ hFresh hPhase =>
        refine ⟨fun cause hEnd => ?_, fun hOther => ?_⟩
        · rw [hPhase] at hEnd
          cases hEnd
        · rw [hFresh] at hOther
          contradiction
    | reused _ _ hFresh hPhase =>
        obtain ⟨token, hToken⟩ := token_of_fresh hFresh
        rw [hToken, Option.getD_some] at hPhase
        refine ⟨fun cause hEnd => ?_, fun _ => .inl ⟨token, hToken, hPhase⟩⟩
        rw [hPhase] at hEnd
        cases hCase : k.call <;> simp [hCase, Call.result] at hEnd
    | joined t hJoin hAwaited =>
        obtain ⟨d, hLeft⟩ := hAcquires.leftBehind hSound rfl hJoin
        exact ⟨fun cause hEnd => .inr ⟨t, d, hLeft, hAwaited.failed hEnd⟩, fun _ => .inr ⟨t, d, hLeft, hAwaited⟩⟩
    | began _ hNeed _ =>
        have hStale := hNeed.resolve_left hAsked
        refine ⟨fun _ _ => .inl hStale, fun hOther => ?_⟩
        rw [hStale] at hOther
        contradiction

/-- While the stored token is good for another hour, the caller of a forced refresh is cancelled. A call for a
token joins the round trip that is left behind and fails with it. -/
theorem fresh_token_call_fails :
    let cfg : Config :=
      { source := .refreshable ⟨"R", "id", "s"⟩, url := Grant.defaultUrl, margin := .minute, gated := true }
    let clock : Instant := ⟨1704110400000000, by decide, by decide⟩
    let held : HeldToken := ⟨some "old", some ⟨1704114000000000, by decide, by decide⟩⟩
    let cause : RefreshCause := .transport { message := "down" }
    let before : List Move := [.act (.call .refresh), .turn, .turn, .act (.cancel 0), .turn, .act (.call .token)]
    let later : List Move := [.act .release, .turn, .turn, .turn, .turn]
    let given := (start clock held [.failed { message := "down" }]).play cfg before
    let s := given.play cfg (.turn :: later)
    Acquires cfg 1 given .turn ∧ given.held.isFresh? given.clock cfg.margin = some true ∧
      s.calls[1]? = some ⟨.token, .finished (.failed (.refreshFailed cause)), false⟩ := by
  intro cfg clock held cause before later given s
  refine ⟨⟨[.acquired 1], ?_, by simp⟩, ?_, ?_⟩
  · dsimp only [given, before, cfg, clock, held]
    decide +kernel
  · dsimp only [given, before, cfg, clock, held]
    decide +kernel
  · dsimp only [s, given, before, later, cause, cfg, clock, held]
    decide +kernel

end State

end Bearer.Cache
