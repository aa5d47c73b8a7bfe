import Bearer.Proofs.Cache.Boundary
import Bearer.Proofs.Settings.Reading

/-! The settings refuse a margin below zero and none that is long. With one that reaches behind the calendar a call
for a good token fails, once a token has been stored. -/

namespace Bearer

/-- The beginning of the year 1, before which there is no instant. -/
def Instant.first : Instant := ⟨-62135596800000000, by decide, by decide⟩

namespace HeldToken

/-- A token is held, and when it expires. -/
def IsWhole (held : HeldToken) : Prop := ∃ token expiry, held = ⟨some token, some expiry⟩

/-- An answer may replace what is held, and takes nothing away. -/
theorem IsWhole.after {held : HeldToken} (h : held.IsWhole) (nesting : Nat) (a : Cache.Answer) :
    (held.after nesting a).IsWhole := by
  unfold HeldToken.after
  split
  · exact h
  split
  · exact ⟨_, _, rfl⟩
  · obtain ⟨token, expiry, rfl⟩ := h
    exact ⟨_, _, rfl⟩

/-- A token is fresh if it is good for longer than the margin. There is no answer if its expiry less the margin
lies before the first instant. -/
theorem isFresh?_eq (token : Text) (expiry now : Instant) {margin : Duration} (hNonneg : 0 ≤ margin.micros) :
    isFresh? ⟨some token, some expiry⟩ now margin =
      if expiry.micros - margin.micros < Instant.first.micros then none
      else some (decide (margin.micros < expiry.micros - now.micros)) := by
  have hLast := expiry.le_greatest
  split
  · next hEarly =>
      have hNone : expiry.sub? margin = none := Instant.ofMicros?_eq_none.mpr (.inl hEarly)
      rw [isFresh?_eq_none]
      exact ⟨token, expiry, rfl, hNone⟩
  · next hRange =>
      have hLatest : expiry.sub? margin = some ⟨expiry.micros - margin.micros, Int.not_lt.mp hRange, by omega⟩ :=
        Instant.ofMicros?_eq_some.mpr rfl
      simp only [isFresh?, hLatest, Option.map_some, Option.some.injEq, decide_eq_decide]
      omega

end HeldToken

namespace Cache.State

variable {cfg : Config} {s : State} {c : CallId} {k : Caller} {m : Move} {token : Text} {expiry : Instant}

theorem isWhole_move (h : s.held.IsWhole) (m : Move) : (s.move cfg m).held.IsWhole := by
  rw [held_move]
  cases s.answer? cfg m with
  | none => exact h
  | some a => exact h.after cfg.nesting a

/-- Once a token is held with its expiry, some token always is. -/
theorem isWhole_play (h : s.held.IsWhole) (moves : List Move) : (s.play cfg moves).held.IsWhole := by
  induction moves generalizing s with
  | nil => exact h
  | cons m moves ih => exact ih (isWhole_move h m)

/-- How a call for a good token fares that is given the lock while a token is held with its expiry. -/
inductive Fares (cfg : Config) (c : CallId) (k : Caller) (token : Text) (expiry : Instant) (s : State) (m : Move) :
    Prop where
  /-- It joins the round trip that is under way. -/
  | joins (t : TripId) (hJoin : s.joinable? = some t) (hWaits : (s.move cfg m).phase? c = some (.waiting t))
  /-- It fails, because the expiry less the margin is no instant. -/
  | overruns (hJoin : s.joinable? = none) (hEarly : expiry.micros - cfg.margin.micros < Instant.first.micros)
      (hEnd : (s.move cfg m).phase? c = some (.finished (.failed .outOfRange)))
  /-- It takes the held token. -/
  | reuses (hJoin : s.joinable? = none) (hRange : Instant.first.micros ≤ expiry.micros - cfg.margin.micros)
      (hFresh : cfg.margin.micros < expiry.micros - s.clock.micros) (hTrips : (s.move cfg m).trips = s.trips)
      (hEnd : (s.move cfg m).phase? c = some (.finished (k.call.result c token)))
  /-- It begins a round trip. -/
  | begins (hJoin : s.joinable? = none) (hRange : Instant.first.micros ≤ expiry.micros - cfg.margin.micros)
      (hStale : expiry.micros - s.clock.micros ≤ cfg.margin.micros) (hBegins : Begins cfg s.trips.length c s m)

theorem Acquires.fares (h : Acquires cfg c s m) (hCall : s.calls[c]? = some k) (hAsked : k.call ≠ .refresh)
    (hHeld : s.held = ⟨some token, some expiry⟩) (hNonneg : 0 ≤ cfg.margin.micros) :
    Fares cfg c k token expiry s m := by
  have hFreshness := HeldToken.isFresh?_eq token expiry s.clock hNonneg
  rw [← hHeld] at hFreshness
  have hInRange {fresh : Bool} (hFresh : s.held.isFresh? s.clock cfg.margin = some fresh) :
      Instant.first.micros ≤ expiry.micros - cfg.margin.micros ∧
        fresh = decide (cfg.margin.micros < expiry.micros - s.clock.micros) := by
    rw [hFreshness] at hFresh
    split at hFresh
    · contradiction
    · next hRange => exact ⟨Int.not_lt.mp hRange, (Option.some.inj hFresh).symm⟩
  obtain ⟨k', events, hCall', hEarly, hEntry⟩ := h.entry
  cases hCall.symm.trans hCall'
  cases hEntry with
  | unknown _ hJoin hUnknown _ hEnd =>
      rw [hFreshness] at hUnknown
      split at hUnknown
      · next hBefore => exact .overruns hJoin hBefore hEnd
      · contradiction
  | reused _ hJoin hFresh hTrips hEnd =>
      obtain ⟨hRange, hGood⟩ := hInRange hFresh
      rw [hHeld] at hEnd
      exact .reuses hJoin hRange (of_decide_eq_true hGood.symm) hTrips hEnd
  | joined t hJoin _ hWaits => exact .joins t hJoin hWaits
  | began hJoin hNeed hTrips hWaits =>
      obtain ⟨hRange, hDue⟩ := hInRange (hNeed.resolve_left hAsked)
      have hLength : (s.move cfg m).trips.length = s.trips.length + 1 := by
        rw [hTrips, List.length_append, List.length_singleton]
      exact .begins hJoin hRange (Int.not_lt.mp (of_decide_eq_false hDue.symm))
        ⟨rfl, hLength, .of_caller hCall hEarly, hWaits⟩

/-- The check of freshness under a margin that the settings accept and that is a duration. It has an answer
exactly if the expiry less the margin does not lie before the first instant, and then compares as integers do.
After a refresh that stored a token and its expiry, some token is held with its expiry ever after, and every call
for a good token that is given the lock joins the round trip under way, takes the held token or begins a round
trip, unless the check has no answer: then it fails. -/
theorem service_under_margin {sources : Settings.Sources} {settings : Settings} {margin : Duration}
    (hRead : Settings.read sources = .valid settings)
    (hMargin : Duration.ofSeconds? settings.refreshMargin = some margin) :
    (∀ token expiry now, HeldToken.isFresh? ⟨some token, some expiry⟩ now margin =
      if expiry.micros - margin.micros < Instant.first.micros then none
      else some (decide (margin.micros < expiry.micros - now.micros))) ∧
    ∀ (cfg : Config) (clock : Instant) (held : HeldToken) (replies : List Reply) (before : List Move) (a : Answer)
      (g : Grant) (expiry : Instant),
      let refreshing := (start clock held replies).play cfg before
      cfg.margin = margin → refreshing.answer? cfg .turn = some a → a.reply.grant? cfg.nesting = some g →
      g.expiry? refreshing.clock = some expiry →
      (refreshing.turn cfg).held = ⟨some g.token, some expiry⟩ ∧
      ∀ between m c k,
        let given := (refreshing.turn cfg).play cfg between
        Acquires cfg c given m → given.calls[c]? = some k → k.call ≠ .refresh →
        ∃ token latest, given.held = ⟨some token, some latest⟩ ∧ Fares cfg c k token latest given m := by
  have hNonneg : 0 ≤ margin.micros := by
    have hSeconds := Settings.refreshMargin_nonneg hRead
    rw [Duration.ofMicros?_eq_some.mp hMargin]
    omega
  refine ⟨fun token expiry now => HeldToken.isFresh?_eq token expiry now hNonneg, ?_⟩
  intro cfg clock held replies before a g expiry refreshing hSame hAnswer hGrant hExpiry
  subst hSame
  have hStored : (refreshing.turn cfg).held = ⟨some g.token, some expiry⟩ := by
    have hNow : a.now = refreshing.clock := (underWay_of_answer hAnswer).1
    have hHeld := held_move cfg refreshing .turn
    rw [hAnswer] at hHeld
    exact hHeld.trans (HeldToken.after_of_expiry refreshing.held hGrant (hNow ▸ hExpiry))
  refine ⟨hStored, ?_⟩
  intro between m c k given hAcquires hCall hAsked
  obtain ⟨token, latest, hHeld⟩ : given.held.IsWhole := isWhole_play ⟨_, _, hStored⟩ between
  exact ⟨token, latest, hHeld, hAcquires.fares hCall hAsked hHeld hNonneg⟩

/-- Sources that set a key and a margin. -/
def sourcesWith (margin : Int) : Settings.Sources where
  keywords := [("refresh_token", .string "R"), ("client_id", .string "id"), ("client_secret", .string "s"),
    ("refresh_margin_seconds", .int margin)]

/-- The settings read from them. -/
def settingsWith (margin : Int) : Settings :=
  { Settings.byDefault with
    refreshToken := some "R", clientId := some "id", clientSecret := some "s", refreshMargin := margin }

/-- The cache of the settings. -/
def cacheWith (margin : Duration) : Config :=
  { source := .refreshable ⟨"R", "id", "s"⟩, url := Grant.defaultUrl, margin }

/-- The answer that grants a token for an hour. -/
def hourReply : Reply := .response {
  status := 200
  body := (Utf8.encode "\x7b\"access_token\":\"t\",\"expires_in\":3600\x7d").toOption.getD [] }

/-- With a margin of a minute, a second call takes the token that was granted for an hour. -/
theorem second_call_reuses :
    let clock : Instant := ⟨1704110400000000, by decide, by decide⟩
    let expiry : Instant := ⟨1704114000000000, by decide, by decide⟩
    let refreshing := (start clock {} [hourReply]).play (cacheWith .minute) [.act (.call .token), .turn]
    let given := (refreshing.turn (cacheWith .minute)).play (cacheWith .minute)
      [.turn, .turn, .turn, .act (.call .token)]
    Settings.read (sourcesWith 60) = .valid (settingsWith 60) ∧
      Fares (cacheWith .minute) 1 ⟨.token, .starting, false⟩ "t" expiry given .turn := by
  intro clock expiry refreshing given
  have hRead : Settings.read (sourcesWith 60) = .valid (settingsWith 60) := Settings.read_of_keywords _
  have hMargin : Duration.ofSeconds? (settingsWith 60).refreshMargin = some .minute := rfl
  have hAnswer : refreshing.answer? (cacheWith .minute) .turn = some ⟨clock, hourReply⟩ := rfl
  have hGrant : hourReply.grant? (cacheWith .minute).nesting = some ⟨"t", 3600, by decide, by decide⟩ := by
    dsimp only [hourReply]
    decide +kernel
  have hExpiry : Grant.expiry? ⟨"t", 3600, by decide, by decide⟩ refreshing.clock = some expiry := by
    dsimp only [refreshing, clock, expiry, cacheWith, hourReply]
    decide +kernel
  have hAcquires : Acquires (cacheWith .minute) 1 given .turn := by
    refine ⟨[.acquired 1, .note (.cached (some expiry)), .finished 1 (.token "t")], ?_, by simp⟩
    dsimp only [given, refreshing, clock, expiry, cacheWith, hourReply]
    decide +kernel
  have hCall : given.calls[1]? = some ⟨.token, .starting, false⟩ := by
    dsimp only [given, refreshing, clock, cacheWith, hourReply]
    decide +kernel
  have hHour : given.held = ⟨some "t", some expiry⟩ := by
    dsimp only [given, refreshing, clock, expiry, cacheWith, hourReply]
    decide +kernel
  obtain ⟨-, hServed⟩ := service_under_margin hRead hMargin
  obtain ⟨-, hCalls⟩ := hServed (cacheWith .minute) clock {} [hourReply] [.act (.call .token), .turn]
    ⟨clock, hourReply⟩ ⟨"t", 3600, by decide, by decide⟩ expiry rfl hAnswer hGrant hExpiry
  obtain ⟨token, latest, hHeld, hFares⟩ := hCalls _ _ _ _ hAcquires hCall (by simp)
  cases hHeld.symm.trans hHour
  exact ⟨hRead, hFares⟩

/-- With a margin of about two thousand years, which the settings accept, a token is granted for an hour to the
first call. The check then has no answer, and the second call fails. -/
theorem second_call_overruns :
    let margin : Duration := ⟨64000000000000000, by decide, by decide⟩
    let clock : Instant := ⟨1704110400000000, by decide, by decide⟩
    let s := (start clock {} [hourReply]).play (cacheWith margin)
      [.act (.call .token), .turn, .turn, .turn, .turn, .turn, .act (.call .token), .turn]
    Settings.read (sourcesWith 64000000000) = .valid (settingsWith 64000000000) ∧
      Duration.ofSeconds? (settingsWith 64000000000).refreshMargin = some margin ∧
      s.calls[0]? = some ⟨.token, .finished (.token "t"), false⟩ ∧
      s.held = ⟨some "t", some ⟨1704114000000000, by decide, by decide⟩⟩ ∧
      s.held.isFresh? s.clock margin = none ∧
      s.calls[1]? = some ⟨.token, .finished (.failed .outOfRange), false⟩ := by
  intro margin clock s
  refine ⟨Settings.read_of_keywords _, rfl, ?_, ?_, ?_, ?_⟩
  all_goals
    dsimp only [s, margin, clock, cacheWith, hourReply]
    decide +kernel

end Cache.State

end Bearer
