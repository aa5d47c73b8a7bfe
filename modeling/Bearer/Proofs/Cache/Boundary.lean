import Bearer.Proofs.Cache.Chronicle
import Bearer.Proofs.Cache.Necessity
import Bearer.Proofs.Cache.Settling

/-! A call takes the stored token only before its expiry less the margin, and the refresh that stored the token warns
if that instant does not lie in the future. Both comparisons meet at one instant. -/

namespace Bearer.Cache

/-- The freshness of a token that was granted at the instant `stored`. -/
theorem HeldToken.isFresh?_of_grant {g : Grant} {stored now expiry latest : Instant} {margin : Duration}
    (hExpiry : g.expiry? stored = some expiry) (hLatest : expiry.sub? margin = some latest) :
    HeldToken.isFresh? ⟨some g.token, some expiry⟩ now margin =
      some (decide (now.micros < stored.micros + g.seconds * 1000000 - margin.micros)) := by
  have hEnd : expiry.micros = stored.micros + g.seconds * 1000000 := Instant.ofMicros?_eq_some.mp hExpiry
  have hBoundary : latest.micros = expiry.micros - margin.micros := Instant.ofMicros?_eq_some.mp hLatest
  simp only [HeldToken.isFresh?, hLatest, Option.map_some, hBoundary, hEnd]

/-- Storing a grant warns if the grant is not good for longer than the margin. -/
theorem shortLived_mem_store {g : Grant} {stored expiry : Instant} {margin : Duration} (held : HeldToken)
    (hExpiry : g.expiry? stored = some expiry) :
    Chronicle.shortLived ∈ (store margin stored held g).notes.map Note.line ↔
      g.seconds * 1000000 ≤ margin.micros := by
  unfold store
  split
  · next hLifetime => rw [g.expiry?_of_no_lifetime stored hLifetime] at hExpiry; contradiction
  · next lifetime hLifetime =>
      have hMicros : lifetime.micros = g.seconds * 1000000 := Duration.ofMicros?_eq_some.mp hLifetime
      rw [g.expiry?_of_lifetime stored hLifetime, hExpiry]
      rw [List.map_append, List.mem_append, lifetimeNotes, hMicros]
      split
      · next hShort => exact iff_of_true (.inl (List.mem_singleton.mpr rfl)) hShort
      · next hLong =>
          refine iff_of_false ?_ hLong
          rintro (hNone | hOther)
          · contradiction
          · have hSame : Chronicle.shortLived = Chronicle.refreshed := List.mem_singleton.mp hOther
            exact absurd hSame (by decide)

namespace State

variable {cfg : Config} {s s' : State} {c : CallId} {t u : TripId} {k : Caller} {m : Move} {a : Answer}
  {key : RefreshKey} {request : Request}

theorem lines_answerTrip (cfg : Config) (key : RefreshKey) (t : TripId) (s : State) :
    (s.answerTrip cfg key t).lines = s.lines ++
      (settlement cfg.nesting cfg.margin key s.clock s.held (takeReply s.replies).1).notes.map Note.line := by
  rw [lines_of_trace (trace_answerTrip cfg key t s), note?_arrived]

/-- An answer is taken in the first step of a round trip, right after its request, or once it is released. -/
theorem lines_of_answer (hSource : cfg.source = .refreshable key) (hAnswer : s.answer? cfg .turn = some a) :
    ∃ t first, (s.turn cfg).lines =
        s.lines ++ (first ++ (settlement cfg.nesting cfg.margin key s.clock s.held a.reply).notes.map Note.line) ∧
      (first = [Chronicle.started] ∧ (∃ request, refreshRequest cfg.url key = .ok request) ∨
        first = [] ∧ s.Unanswered t) := by
  obtain ⟨t, rest, hReady, hTakes, rfl⟩ := answer?_eq_some hAnswer
  unfold takesReply at hTakes
  split at hTakes
  · next key' hKey hOld =>
      cases hSource.symm.trans hKey
      rw [Bool.and_eq_true, Bool.not_eq_true'] at hTakes
      obtain ⟨hGated, hOk⟩ := hTakes
      cases hRequest : refreshRequest cfg.url key with
      | error fault => rw [hRequest] at hOk; contradiction
      | ok request =>
          let asked := ({ s with ready := rest }.observe [.note (.started key.clientId)]).observe [.request request]
          have hTurn : s.turn cfg = asked.answerTrip cfg key t := by
            simp only [turn, hReady, perform, stepTrip, hSource, hOld, startTrip, hRequest, hGated]
            rfl
          have hAsked : asked.lines = s.lines ++ [Chronicle.started] := by
            have hTrace : asked.trace = s.trace ++ [.note (.started key.clientId), .request request] :=
              List.append_assoc _ _ _
            exact lines_of_trace hTrace
          refine ⟨t, [Chronicle.started], ?_, .inl ⟨rfl, request, rfl⟩⟩
          rw [hTurn, lines_answerTrip, hAsked, List.append_assoc]
          rfl
  · next key' hKey hOld =>
      cases hSource.symm.trans hKey
      have hTurn : s.turn cfg = State.answerTrip cfg key t { s with ready := rest } := by
        simp only [turn, hReady, perform, stepTrip, hSource, hOld]
      exact ⟨t, [], hTurn ▸ lines_answerTrip cfg key t _, .inr ⟨rfl, .released, hOld, rfl⟩⟩
  · contradiction

/-- Only a request that can be written waits for its answer. -/
theorem request_of_unanswered (hSource : cfg.source = .refreshable key) (clock : Instant) (held : HeldToken)
    (replies : List Reply) (moves : List Move) (h : ((start clock held replies).play cfg moves).Unanswered t) :
    ∃ request, refreshRequest cfg.url key = .ok request := by
  refine play_invariant
    (P := fun s => ∀ t, s.Unanswered t → ∃ request, refreshRequest cfg.url key = .ok request)
    (fun t ⟨trip, hTrip, _⟩ => by contradiction) (fun s m hOld t hNew => ?_) moves t h
  cases m with
  | act a =>
      obtain ⟨-, hSame | ⟨u, hSent, hReleased⟩⟩ := act_effect s a
      · exact hOld t ((unanswered_congr hSame).mp hNew)
      · exact hOld t ((unanswered_released hSent hReleased).mp hNew)
  | turn =>
      obtain ⟨events, -, hTells, -⟩ := continues_turn cfg s
      cases hTells with
      | call _ hCall =>
          rcases hCall.trips with hSame | hBegun
          · exact hOld t ((unanswered_congr hSame).mp hNew)
          · exact hOld t ((unanswered_concat hBegun).mp hNew)
      | sent _ key' request hKey hRequest _ _ =>
          cases hSource.symm.trans hKey
          exact ⟨request, hRequest⟩
      | refused _ _ _ _ _ _ hTrips => exact hOld t (hNew.of_finished hTrips).2
      | answeredAtOnce _ _ _ _ _ _ _ _ hTrips => exact hOld t (hNew.of_finished hTrips).2
      | answered _ _ _ _ _ _ hTrips => exact hOld t (hNew.of_finished hTrips).2

/-- A move sends one request for each round trip that takes its first step in it. -/
theorem requests_move (hSource : cfg.source = .refreshable key)
    (hRequest : refreshRequest cfg.url key = .ok request) (s : State) (m : Move) :
    ∃ n, (s.move cfg m).requests = s.requests ++ List.replicate n request ∧
      (s.move cfg m).started = s.started + n := by
  have hSame {s' : State} (hTrips : s'.trips = s.trips) : s'.started = s.started + 0 := started_congr hTrips
  have hSet {t : TripId} {s' : State} {old : Trip} (new : Trip) (hNew : new.isStarted = true)
      (hOld : s.trips[t]? = some old) (hTrips : s'.trips = s.trips.set t new) :
      s'.started + (if old.isStarted then 1 else 0) = s.started + 1 := by
    have hStarted := started_setTrip hOld new
    rw [hNew, if_pos rfl] at hStarted
    exact hStarted ▸ congrArg (· + _) (started_congr hTrips)
  cases m with
  | act a =>
      have hRequests : (s.act a).requests = s.requests ++ [] := by
        rw [requests, trace_act, List.append_nil, requests]
      obtain ⟨-, hTrips | ⟨t, hSent, hTrips⟩⟩ := act_effect s a
      · exact ⟨0, hRequests, hSame hTrips⟩
      · exact ⟨0, hRequests, Nat.succ.inj (hSet .released rfl hSent hTrips)⟩
  | turn =>
      obtain ⟨events, hTrace, hTells, -⟩ := continues_turn cfg s
      have hRequests := requests_of_trace hTrace
      cases hTells with
      | call _ hCall =>
          rw [hCall.request?] at hRequests
          refine ⟨0, hRequests, ?_⟩
          rcases hCall.trips with hTrips | hTrips
          · exact hSame hTrips
          · rw [State.move, started, hTrips, List.countP_append]
            rfl
      | sent t key' request' hKey hRequest' hOld hTrips =>
          cases hSource.symm.trans hKey
          cases hRequest.symm.trans hRequest'
          exact ⟨1, hRequests, hSet .sent rfl hOld hTrips⟩
      | refused t key' fault hKey hFault _ _ =>
          cases hSource.symm.trans hKey
          rw [hRequest] at hFault
          contradiction
      | answeredAtOnce t key' request' a hKey hRequest' hOld _ hTrips =>
          cases hSource.symm.trans hKey
          cases hRequest.symm.trans hRequest'
          rw [List.filterMap_append, request?_arrived] at hRequests
          exact ⟨1, hRequests, hSet (.finished _) rfl hOld hTrips⟩
      | answered t key' a _ hOld _ hTrips =>
          rw [request?_arrived] at hRequests
          exact ⟨0, hRequests, Nat.succ.inj (hSet (.finished _) rfl hOld hTrips)⟩

/-- As many requests are sent as round trips take their first step. -/
theorem requests_play (hSource : cfg.source = .refreshable key)
    (hRequest : refreshRequest cfg.url key = .ok request) (s : State) (moves : List Move) :
    ∃ n, (s.play cfg moves).requests = s.requests ++ List.replicate n request ∧
      (s.play cfg moves).started = s.started + n := by
  induction moves generalizing s with
  | nil => exact ⟨0, (List.append_nil _).symm, rfl⟩
  | cons m moves ih =>
      obtain ⟨n, hRequests, hStarted⟩ := requests_move hSource hRequest s m
      obtain ⟨n', hRequests', hStarted'⟩ := ih (s.move cfg m)
      refine ⟨n + n', ?_, ?_⟩
      · rw [play_cons, hRequests', hRequests, List.append_assoc, List.replicate_append_replicate]
      · rw [play_cons, hStarted', hStarted, Nat.add_assoc]

/-- All round trips have taken their first step if none under way has yet to. -/
theorem started_eq_length (h : ∀ t, s.UnderWay t → s.trips[t]? ≠ some .starting) :
    s.started = s.trips.length := by
  rw [started, List.countP_eq_length]
  intro trip hTrip
  obtain ⟨t, hGet⟩ := List.mem_iff_getElem?.mp hTrip
  cases trip with
  | starting => exact absurd hGet (h t ⟨_, hGet, rfl⟩)
  | sent => rfl
  | released => rfl
  | finished o => rfl

theorem Sound.started_eq_length (h : Sound cfg s) (hReady : s.ready = []) : s.started = s.trips.length :=
  State.started_eq_length fun t ht hStarting => by
    rw [h.sent_of_underWay hReady ht] at hStarting
    cases hStarting

/-- A call is served with a result at once: no request is sent, and no round trip is begun that could. -/
structure Reuses (cfg : Config) (c : CallId) (r : Result) (s : State) (m : Move) : Prop where
  ended : (s.move cfg m).phase? c = some (.finished r)
  requests : (s.move cfg m).requests = s.requests
  trips : (s.move cfg m).trips = s.trips

/-- A call begins a round trip. From then on there is at most one request for each round trip begun, this one
and any that come after it, and exactly one once nothing is left to do, which turns alone lead to. -/
structure Asks (cfg : Config) (request : Request) (c : CallId) (s : State) (m : Move) : Prop where
  begins : Begins cfg s.trips.length c s m
  bounded : ∀ later, (s.play cfg (m :: later)).requests <+:
    s.requests ++ List.replicate ((s.play cfg (m :: later)).trips.length - s.trips.length) request
  settled : ∀ later, (s.play cfg (m :: later)).ready = [] → (s.play cfg (m :: later)).requests =
    s.requests ++ List.replicate ((s.play cfg (m :: later)).trips.length - s.trips.length) request
  settles : ∃ count, (s.play cfg (m :: List.replicate count .turn)).ready = []

theorem Begins.asks (h : Begins cfg s.trips.length c s m) (hSound : Sound cfg s)
    (hSource : cfg.source = .refreshable key) (hRequest : refreshRequest cfg.url key = .ok request)
    (hNone : ∀ t, ¬s.UnderWay t) : Asks cfg request c s m := by
  have hNow : s.started = s.trips.length := started_eq_length fun t ht => absurd ht (hNone t)
  refine ⟨h, fun later => ?_, fun later hReady => ?_, ?_⟩
  · obtain ⟨n, hRequests, hStarted⟩ := requests_play hSource hRequest s (m :: later)
    have hBound : (s.play cfg (m :: later)).started ≤ (s.play cfg (m :: later)).trips.length :=
      List.countP_le_length
    obtain ⟨rest, hRest⟩ := Nat.exists_eq_add_of_le
      (show n ≤ (s.play cfg (m :: later)).trips.length - s.trips.length by omega)
    rw [hRequests, hRest, ← List.replicate_append_replicate, ← List.append_assoc]
    exact List.prefix_append _ _
  · obtain ⟨n, hRequests, hStarted⟩ := requests_play hSource hRequest s (m :: later)
    have hAll := (hSound.play (m :: later)).started_eq_length hReady
    rw [hRequests, ← hAll, hStarted, hNow, Nat.add_sub_cancel_left]
  · obtain ⟨count, hTurns⟩ := turns_eq_play cfg (s.move cfg m) (s.move cfg m).weight
    exact ⟨count, hTurns ▸ settle_ready cfg (s.move cfg m)⟩

theorem Reuses.not_asks {r : Result} (h : Reuses cfg c r s m) : ¬Asks cfg request c s m := by
  intro hAsks
  have hMore := hAsks.begins.2.1
  rw [h.trips] at hMore
  omega

/-- A call for a good token that is given the lock while no round trip is under way takes the stored token if
that is fresh, and begins a round trip if not. -/
theorem Acquires.reuses_or_asks {token : Text} {expiry : Instant} {fresh : Bool} (h : Acquires cfg c s m)
    (hSound : Sound cfg s) (hNone : ∀ t, ¬s.UnderWay t) (hCall : s.calls[c]? = some k)
    (hAsked : k.call ≠ .refresh) (hHeld : s.held = ⟨some token, some expiry⟩)
    (hFresh : s.held.isFresh? s.clock cfg.margin = some fresh) (hSource : cfg.source = .refreshable key)
    (hRequest : refreshRequest cfg.url key = .ok request) :
    (Reuses cfg c (k.call.result c token) s m ↔ fresh = true) ∧
      (Asks cfg request c s m ↔ fresh = false) := by
  obtain ⟨k', events, hCall', hEarly, hEntry⟩ := h.entry
  cases hCall.symm.trans hCall'
  cases hEntry with
  | unknown _ _ hUnknown _ _ =>
      rw [hFresh] at hUnknown
      contradiction
  | joined t hJoin _ _ => exact absurd (underWay_of_joinable hSound hJoin) (hNone t)
  | reused _ _ hReused hTrips hEnd =>
      cases hFresh.symm.trans hReused
      rw [hHeld, Option.getD_some] at hEnd
      obtain ⟨n, hRequests, hStarted⟩ := requests_move hSource hRequest s m
      rw [started_congr hTrips] at hStarted
      obtain rfl : n = 0 := by omega
      have hReuses : Reuses cfg c (k.call.result c token) s m :=
        ⟨hEnd, hRequests.trans (List.append_nil _), hTrips⟩
      exact ⟨iff_of_true hReuses rfl, iff_of_false hReuses.not_asks (by simp)⟩
  | began _ hNeed hTrips hWaits =>
      cases hFresh.symm.trans (hNeed.resolve_left hAsked)
      have hLength : (s.move cfg m).trips.length = s.trips.length + 1 := by
        rw [hTrips, List.length_append, List.length_singleton]
      have hBegins : Begins cfg s.trips.length c s m := ⟨rfl, hLength, .of_caller hCall hEarly, hWaits⟩
      have hAsks := hBegins.asks hSound hSource hRequest hNone
      exact ⟨iff_of_false (fun hReuses => hReuses.not_asks hAsks) (by simp), iff_of_true hAsks rfl⟩

/-- The boundary of freshness after a refresh. A refresh stores a token, and neither its expiry nor the expiry
less the margin lies outside the calendar. The boundary is the instant of storing, plus the lifetime, less the
margin. As long as no other token is stored, a call for a good token that is given the lock while no round trip
is under way takes this one before the boundary, and sends no request. From the boundary on it begins a round
trip, which sends one. The refresh has warned of the lifetime exactly if such a call at the instant of storing
would begin a round trip already. -/
theorem freshness_boundary (cfg : Config) (key : RefreshKey) (hSource : cfg.source = .refreshable key)
    (clock : Instant) (held : HeldToken) (replies : List Reply) (before : List Move) {a : Answer} {g : Grant}
    {expiry latest : Instant}
    (hAnswer : ((start clock held replies).play cfg before).answer? cfg .turn = some a)
    (hGrant : a.reply.grant? cfg.nesting = some g)
    (hExpiry : g.expiry? ((start clock held replies).play cfg before).clock = some expiry)
    (hLatest : expiry.sub? cfg.margin = some latest) :
    let refreshing := (start clock held replies).play cfg before
    let stored := refreshing.turn cfg
    let boundary := refreshing.clock.micros + g.seconds * 1000000 - cfg.margin.micros
    ∃ request told, refreshRequest cfg.url key = .ok request ∧ stored.lines = refreshing.lines ++ told ∧
      (Chronicle.shortLived ∈ told ↔ ¬refreshing.clock.micros < boundary) ∧
      ∀ between m c k,
        let given := stored.play cfg between
        (∀ b ∈ stored.answers cfg between, b.stored? cfg.nesting = none) → (∀ t, ¬given.UnderWay t) →
        Acquires cfg c given m → given.calls[c]? = some k → k.call ≠ .refresh →
        (Reuses cfg c (k.call.result c g.token) given m ↔ given.clock.micros < boundary) ∧
          (Asks cfg request c given m ↔ ¬given.clock.micros < boundary) ∧
          (given.clock = stored.clock → (Chronicle.shortLived ∈ told ↔ Asks cfg request c given m)) := by
  intro refreshing stored boundary
  have hNow : a.now = refreshing.clock := (underWay_of_answer hAnswer).1
  obtain ⟨t, first, hLines, hFirst⟩ := lines_of_answer hSource hAnswer
  obtain ⟨request, hRequest⟩ : ∃ request, refreshRequest cfg.url key = .ok request := by
    rcases hFirst with ⟨-, hWritten⟩ | ⟨-, hWaits⟩
    · exact hWritten
    · exact request_of_unanswered hSource clock held replies before hWaits
  have hQuiet : Chronicle.shortLived ∉ first := by
    rcases hFirst with ⟨rfl, -⟩ | ⟨rfl, -⟩ <;> decide
  have hWarned : Chronicle.shortLived ∈
      first ++ (settlement cfg.nesting cfg.margin key refreshing.clock refreshing.held a.reply).notes.map Note.line ↔
        ¬refreshing.clock.micros < boundary := by
    rw [List.mem_append, or_iff_right hQuiet, settlement_of_grant cfg.nesting cfg.margin key refreshing.held hGrant,
      shortLived_mem_store refreshing.held hExpiry]
    omega
  refine ⟨request, _, hRequest, hLines, hWarned, ?_⟩
  intro between m c k given hKept hNone hAcquires hCall hAsked
  have hSound : Sound cfg given := ((Sound.start clock held replies).play before).turn.play between
  have hHeld : given.held = ⟨some g.token, some expiry⟩ := by
    have hStored : stored.held = refreshing.held.after cfg.nesting a := by
      rw [show stored = refreshing.move cfg .turn from rfl, held_move, hAnswer]
      rfl
    rw [held_play_of_none hKept, hStored]
    exact HeldToken.after_of_expiry refreshing.held hGrant (hNow ▸ hExpiry)
  have hFresh : given.held.isFresh? given.clock cfg.margin = some (decide (given.clock.micros < boundary)) :=
    hHeld ▸ HeldToken.isFresh?_of_grant hExpiry hLatest
  obtain ⟨hReuses, hAsks⟩ :=
    hAcquires.reuses_or_asks hSound hNone hCall hAsked hHeld hFresh hSource hRequest
  rw [decide_eq_true_iff] at hReuses
  rw [decide_eq_false_iff_not] at hAsks
  refine ⟨hReuses, hAsks, fun hSame => ?_⟩
  rw [hWarned, hAsks, hSame, clock_turn]

/-- A token that is granted for an hour is taken until a microsecond before its last minute. At the beginning of
that minute a call begins a round trip. -/
theorem last_minute_is_not_fresh :
    let cfg : Config := { source := .refreshable ⟨"R", "id", "s"⟩, url := Grant.defaultUrl, margin := .minute }
    let clock : Instant := ⟨1704110400000000, by decide, by decide⟩
    let body := (Utf8.encode "\x7b\"access_token\":\"t\",\"expires_in\":3600\x7d").toOption.getD []
    let refreshing := (start clock {} [.response { status := 200, body }]).play cfg [.act (.call .token), .turn]
    let soon : List Move := [.turn, .turn, .turn, .act (.advance 3539999999), .act (.call .token)]
    let due : List Move := [.turn, .turn, .turn, .act (.advance 3540000000), .act (.call .token)]
    Reuses cfg 1 (.token "t") ((refreshing.turn cfg).play cfg soon) .turn ∧
      ∃ request, Asks cfg request 1 ((refreshing.turn cfg).play cfg due) .turn := by
  intro cfg clock body refreshing soon due
  have hAnswer : refreshing.answer? cfg .turn = some ⟨clock, .response { status := 200, body }⟩ := rfl
  have hGrant : (Reply.response { status := 200, body }).grant? cfg.nesting = some ⟨"t", 3600, by decide, by decide⟩ := by
    dsimp only [cfg, body]
    decide +kernel
  have hExpiry : Grant.expiry? ⟨"t", 3600, by decide, by decide⟩ refreshing.clock =
      some ⟨1704114000000000, by decide, by decide⟩ := by
    dsimp only [cfg, clock, body, refreshing]
    decide +kernel
  have hLatest : Instant.sub? ⟨1704114000000000, by decide, by decide⟩ cfg.margin =
      some ⟨1704113940000000, by decide, by decide⟩ := by
    dsimp only [cfg]
    decide +kernel
  have hDone {s : State} (hTrips : s.trips = [.finished (.token "t")]) (t : TripId) : ¬s.UnderWay t := by
    rintro ⟨trip, hTrip, hOpen⟩
    rw [hTrips] at hTrip
    cases List.mem_singleton.mp (List.mem_of_getElem? hTrip)
    contradiction
  have hKept {answers : List Answer} (hNone : answers = []) : ∀ b ∈ answers, b.stored? cfg.nesting = none := by
    simp [hNone]
  obtain ⟨request, told, -, -, -, hServed⟩ := freshness_boundary cfg ⟨"R", "id", "s"⟩ rfl clock {}
    [.response { status := 200, body }] [.act (.call .token), .turn] hAnswer hGrant hExpiry hLatest
  constructor
  · refine (hServed soon .turn 1 ⟨.token, .starting, false⟩ (hKept ?_) (hDone ?_)
      ⟨[.acquired 1, .note (.cached (some ⟨1704114000000000, by decide, by decide⟩)), .finished 1 (.token "t")],
        ?_, by simp⟩ ?_ (by simp)).1.mpr ?_
    all_goals
      dsimp only [cfg, clock, body, refreshing, soon]
      decide +kernel
  · refine ⟨request, (hServed due .turn 1 ⟨.token, .starting, false⟩ (hKept ?_) (hDone ?_)
      ⟨[.acquired 1], ?_, by simp⟩ ?_ (by simp)).2.1.mpr ?_⟩
    all_goals
      dsimp only [cfg, clock, body, refreshing, due]
      decide +kernel

end State

end Bearer.Cache
