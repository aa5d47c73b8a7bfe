import Bearer.Proofs.Cache.Atomicity
import Bearer.Proofs.Cache.Waiting
import Bearer.Proofs.Form
import Bearer.Proofs.Grant.Schema

/-! Over a transport that keeps its contract a refresh yields a token or fails with an error that tells the cause: the
transport's own error, a status outside 200 to 299, or a body that grants nothing. -/

namespace Bearer

/-- The transport answers or fails, as it should. -/
def Reply.KeepsContract : Reply → Prop
  | .response _ | .failed _ => True
  | .malformed _ | .unauthorized _ | .raised _ | .interrupted _ | .cancelled => False

namespace Cache

/-- The answers that are supplied are those of a transport that keeps its contract. -/
def Move.KeepsContract : Move → Prop
  | .act (.supply replies) => ∀ reply ∈ replies, reply.KeepsContract
  | _ => True

/-- The answers that are supplied have a property. -/
def Move.Supplies (P : Reply → Prop) : Move → Prop
  | .act (.supply replies) => ∀ reply ∈ replies, P reply
  | _ => True

/-- The refresh fails with an error of its own that tells the cause, also as the error that it was
raised from. -/
def Outcome.FailsWith (o : Outcome) (cause : Report) : Prop :=
  ∃ e : CallError, o = .failed e ∧ e.report =
    .refreshFailed (("Failed to refresh access token: " : Text) ++ cause.message) (some cause) true

/-- The outcome that an answer calls for. -/
inductive Answer.Yields (nesting : Nat) (a : Answer) : Outcome → Prop where
  | granted (g : Grant) (expiry : Instant) (hGrant : a.reply.grant? nesting = some g)
      (hExpiry : g.expiry? a.now = some expiry) : Yields nesting a (.token g.token)
  | overrun (g : Grant) (hGrant : a.reply.grant? nesting = some g) (hExpiry : g.expiry? a.now = none) :
      Yields nesting a (.failed .outOfRange)
  | transport (e : TransportError) (o : Outcome) (hReply : a.reply = .failed e)
      (hFails : o.FailsWith e.report) : Yields nesting a o
  | endpoint (r : Response) (o : Outcome) (hReply : a.reply = .response r)
      (hStatus : r.status < 200 ∨ 299 < r.status) (hFails : o.FailsWith (.tokenEndpoint r.status r.text)) :
      Yields nesting a o
  | malformed (r : Response) (e : GrantError) (o : Outcome) (hReply : a.reply = .response r)
      (hStatus : 200 ≤ r.status ∧ r.status ≤ 299) (hBody : Grant.read r.body nesting = .error (.malformed e))
      (hFails : o.FailsWith (.plain .malformedTokenResponse e.message)) : Yields nesting a o
  | tooDeep (r : Response) (container : Json.Container) (hReply : a.reply = .response r)
      (hStatus : 200 ≤ r.status ∧ r.status ≤ 299) (hBody : Grant.read r.body nesting = .error (.tooDeep container))
      (hDeep : Grant.TooDeep nesting r.body) : Yields nesting a (.failed (.tooDeep container))

theorem failsWith_refreshFailed (cause : RefreshCause) :
    Outcome.FailsWith (.failed (.refreshFailed cause)) cause.report := ⟨_, rfl, rfl⟩

theorem yields_settlement (nesting : Nat) (margin : Duration) (key : RefreshKey) (held : HeldToken) {a : Answer}
    (hKeeps : a.reply.KeepsContract) :
    a.Yields nesting (settlement nesting margin key a.now held a.reply).outcome := by
  cases hGrant : a.reply.grant? nesting with
  | some g =>
      rw [settlement_of_grant nesting margin key held hGrant]
      cases hExpiry : g.expiry? a.now with
      | some expiry =>
          rw [(store_of_expiry margin held hExpiry).1]
          exact .granted g expiry hGrant hExpiry
      | none =>
          rw [(store_of_overrun margin held hExpiry).1]
          exact .overrun g hGrant hExpiry
  | none =>
      cases hReply : a.reply with
      | failed e => exact .transport e _ hReply (failsWith_refreshFailed (.transport e))
      | response r =>
          rw [settlement]
          split
          · next hSuccess =>
              simp only [Response.isSuccess, Bool.and_eq_true, decide_eq_true_eq] at hSuccess
              cases hRead : Grant.read r.body nesting with
              | ok g => simp [hReply, Reply.grant?, Response.isSuccess, hSuccess, hRead, Except.toOption] at hGrant
              | error refusal =>
                  cases refusal with
                  | malformed e =>
                      exact .malformed r e _ hReply (by omega) hRead
                        (failsWith_refreshFailed (.malformed (.grant e)))
                  | tooDeep container =>
                      exact .tooDeep r container hReply (by omega) hRead (Grant.tooDeep_of_read hRead)
          · next hFailure =>
              simp only [Response.isSuccess, Bool.and_eq_true, decide_eq_true_eq] at hFailure
              exact .endpoint r _ hReply (by omega) (failsWith_refreshFailed (.endpoint r.status r.text))
      | _ => simp [hReply, Reply.KeepsContract] at hKeeps

theorem not_failsWith_outOfRange (cause : Report) : ¬Outcome.FailsWith (.failed .outOfRange) cause := by
  rintro ⟨e, hSame, hReport⟩
  cases hSame
  cases hReport

theorem not_failsWith_tooDeep (container : Json.Container) (cause : Report) :
    ¬Outcome.FailsWith (.failed (.tooDeep container)) cause := by
  rintro ⟨e, hSame, hReport⟩
  cases hSame
  cases hReport

/-- A body of brackets that are only opened ends the refresh in the error of the reader. -/
theorem settlement_of_brackets (nesting : Nat) (margin : Duration) (key : RefreshKey) (now : Instant)
    (held : HeldToken) {count : Nat} (hMany : nesting < count) (hSome : 2 ≤ count) :
    settlement nesting margin key now held (.response { status := 200, body := Json.brackets count }) =
      ⟨.failed (.tooDeep .array), held, []⟩ := by
  refine settlement_of_tooDeep nesting margin key held rfl ?_
  rw [Grant.read, Json.ofBytes_brackets hMany hSome]

/-- The answer that is taken when none is left opens nothing. -/
theorem not_tooDeep_default (nesting : Nat) : ¬(Reply.response { status := 200 }).TooDeep nesting := by
  rintro ⟨r, container, hReply, -, hRead⟩
  cases hReply
  obtain ⟨t, hDecode, hDeep⟩ := Grant.tooDeep_of_read hRead
  have hEmpty : Json.decode [] = .ok [] := by decide +kernel
  cases hEmpty.symm.trans hDecode
  exact absurd hDeep (Nat.not_lt_zero nesting)

namespace State

variable {cfg : Config} {s : State} {t : TripId} {o : Outcome}

theorem takeReply_of_all {P : Reply → Prop} {replies : List Reply} (h : ∀ reply ∈ replies, P reply)
    (hDefault : P (.response { status := 200 })) :
    P (takeReply replies).1 ∧ ∀ reply ∈ (takeReply replies).2, P reply := by
  unfold takeReply
  split
  · exact ⟨hDefault, by simp⟩
  · next r => exact ⟨h r (by simp), h⟩
  · next r rest _ => exact ⟨h r (by simp), fun reply hMem => h reply (List.mem_cons_of_mem _ hMem)⟩

theorem release_replies (s : State) : s.release.replies = s.replies := by
  unfold release
  split <;> rfl

theorem supplied_move {P : Reply → Prop} (hDefault : P (.response { status := 200 })) (cfg : Config)
    (h : ∀ reply ∈ s.replies, P reply) {m : Move} (hMove : m.Supplies P) :
    (∀ reply ∈ (s.move cfg m).replies, P reply) ∧ ∀ a, s.answer? cfg m = some a → P a.reply := by
  cases m with
  | act a =>
      refine ⟨?_, by simp [answer?]⟩
      rw [State.move]
      cases a with
      | call call => exact h
      | cancel c => rw [act, (cancel_frame c s).1.replies]; exact h
      | advance micros =>
          obtain ⟨clock, hAct⟩ := act_advance s micros
          rw [hAct]
          exact h
      | supply replies => exact hMove
      | release => rw [act, release_replies]; exact h
      | rest => exact h
  | turn =>
      obtain ⟨hTaken, hLeft⟩ := takeReply_of_all h hDefault
      have hEffect := turn_effect cfg s
      generalize s.answer? cfg .turn = answer at hEffect ⊢
      rw [State.move]
      cases hEffect with
      | quiet hStore _ => exact ⟨hStore.replies ▸ h, by simp⟩
      | begun hStore _ _ => exact ⟨hStore.replies ▸ h, by simp⟩
      | sent _ hStore _ _ => exact ⟨hStore.replies ▸ h, by simp⟩
      | refused _ _ _ _ _ hStore _ _ => exact ⟨hStore.replies ▸ h, by simp⟩
      | answered _ _ _ a _ _ hReply _ _ _ hReplies _ _ =>
          refine ⟨hReplies ▸ hLeft, fun a' ha => ?_⟩
          rw [← Option.some.inj ha, hReply]
          exact hTaken

/-- What is true of all replies that are supplied is true of the answers that a schedule takes. -/
theorem supplied_answers {P : Reply → Prop} (hDefault : P (.response { status := 200 }))
    (h : ∀ reply ∈ s.replies, P reply) {moves : List Move} (hMoves : ∀ m ∈ moves, m.Supplies P) :
    ∀ a ∈ s.answers cfg moves, P a.reply := by
  induction moves generalizing s with
  | nil => simp [answers]
  | cons m moves ih =>
      obtain ⟨hLeft, hTaken⟩ := supplied_move hDefault cfg h (hMoves m List.mem_cons_self)
      intro a ha
      rcases List.mem_append.mp ha with ha | ha
      · exact hTaken a (Option.mem_toList.mp ha)
      · exact ih hLeft (fun m hm => hMoves m (List.mem_cons_of_mem _ hm)) a ha

theorem keepsContract_answers (h : ∀ reply ∈ s.replies, reply.KeepsContract) {moves : List Move}
    (hMoves : ∀ m ∈ moves, m.KeepsContract) : ∀ a ∈ s.answers cfg moves, a.reply.KeepsContract :=
  supplied_answers trivial h hMoves

/-- A round trip that finishes during a schedule whose request can be written ends with the move that takes its
answer. -/
theorem takes_of_play {key : RefreshKey} {request : Request} (hSource : cfg.source = .refreshable key)
    (hRequest : refreshRequest cfg.url key = .ok request) {moves : List Move}
    (hEnd : (s.play cfg moves).trips[t]? = some (.finished o)) :
    s.trips[t]? = some (.finished o) ∨ s.Sometime cfg (fun u m => ∃ a, Takes cfg t a o u m ∧
      o = (settlement cfg.nesting cfg.margin key a.now u.held a.reply).outcome) moves := by
  refine (finishes_of_play hEnd).imp_right fun hSome => hSome.imp fun u m hFinishes => ?_
  have hEnds := hFinishes.ends
  cases hEnds with
  | refused key' fault hSource' hFault _ =>
      cases hSource.symm.trans hSource'
      cases hRequest.symm.trans hFault
  | answered key' a hSource' hAnswer =>
      cases hSource.symm.trans hSource'
      exact ⟨a, ⟨hFinishes.opened, hAnswer, hFinishes.finished⟩, rfl⟩

/-- Over a transport that keeps its contract, every refresh of a credential that can be written ends with the move
that takes its answer, and as that answer calls for: in a token, in an error that tells the cause, in an arithmetic
error where the grant expires after the last year, or in the error of the reader where a body opens a container too
many. A call that waits for a refresh ends with that outcome unless it is cancelled, and it has done so as soon as
nothing is left to do but to wait for the answer. -/
theorem refresh_classified (cfg : Config) (key : RefreshKey) (hSource : cfg.source = .refreshable key)
    (hKey : key.IsScalar) (clock : Instant) (held : HeldToken) (replies : List Reply)
    (hReplies : ∀ reply ∈ replies, reply.KeepsContract) (before later : List Move)
    (hMoves : ∀ m ∈ before ++ later, m.KeepsContract) :
    let first := start clock held replies
    let s := first.play cfg before
    let s' := s.play cfg later
    (∀ (t : TripId) (o : Outcome), s'.trips[t]? = some (.finished o) →
      first.Sometime cfg (fun u m => ∃ a, Takes cfg t a o u m ∧ a.Yields cfg.nesting o) (before ++ later)) ∧
    ∀ (c : CallId) (k : Caller) (t : TripId), s.calls[c]? = some k → k.phase = .waiting t →
      ∃ k' : Caller, s'.calls[c]? = some k' ∧ k'.call = k.call ∧
        (∀ r, k'.phase = .finished r → r = .cancelled ∧ k'.cancelRequested = true ∨
          ∃ o, s'.trips[t]? = some (.finished o) ∧ r = resultOf c k.call o) ∧
        (s'.ready = [] → k'.cancelRequested = false → s'.trips[t]? = some .sent ∨
          ∃ o, s'.trips[t]? = some (.finished o) ∧ k'.phase = .finished (resultOf c k.call o)) := by
  intro first s s'
  obtain ⟨request, hRequest⟩ := refreshRequest_of_isScalar cfg.url hKey
  constructor
  · intro t o hEnd
    have hEnd' : (first.play cfg (before ++ later)).trips[t]? = some (.finished o) := by
      rw [play_append]
      exact hEnd
    have hKept : first.Always cfg (fun u m => ∀ a, u.answer? cfg m = some a → a.reply.KeepsContract)
        (before ++ later) := always_of_answers (keepsContract_answers hReplies hMoves)
    refine ((takes_of_play hSource hRequest hEnd').resolve_left (by simp [first, start])).and_always
      (hKept.imp fun u m hAnswer => ?_)
    rintro ⟨a, hTakes, rfl⟩
    exact ⟨a, hTakes, yields_settlement cfg.nesting cfg.margin key u.held (hAnswer a hTakes.answer)⟩
  · intro c k t hCall hPhase
    have hCoherent : Coherent cfg none s'.ready s' :=
      ((Coherent.start clock held replies).play before).play later
    obtain ⟨k', hCall', hSame, hAwaited⟩ := (Awaited.waiting hPhase).play cfg hCall later
    refine ⟨k', hCall', hSame, ?_, ?_⟩
    · intro r hResult
      cases hAwaited with
      | waiting hPhase' => simp [hResult] at hPhase'
      | delivered o hPhase' _ => simp [hResult] at hPhase'
      | cancelled hPhase' hCancel =>
          exact .inl ⟨Phase.finished.inj (hResult.symm.trans hPhase'), hCancel⟩
      | ended o hPhase' hTrip =>
          exact .inr ⟨o, hTrip, hSame ▸ Phase.finished.inj (hResult.symm.trans hPhase')⟩
    · intro hReady hCancel
      rw [← hSame]
      exact hAwaited.settled hCoherent hReady hSource hCall' hCancel

/-- A forced refresh whose request is not completed ends with the transport's error as its cause. -/
theorem failed_transport_classified :
    let cfg : Config := { source := .refreshable ⟨"R", "id", "s"⟩, url := Grant.defaultUrl, margin := .minute }
    let first := start ⟨1704110400000000, by decide, by decide⟩ {} [.failed { message := "down" }]
    let before : List Move := [.act (.call .refresh), .turn]
    let later : List Move := [.turn, .turn, .turn, .turn]
    let s' := (first.play cfg before).play cfg later
    let o : Outcome := .failed (.refreshFailed (.transport { message := "down" }))
    first.Sometime cfg (fun u m => ∃ a, Takes cfg 0 a o u m ∧ a.Yields cfg.nesting o) (before ++ later) ∧
      s'.result? 0 = some (.failed (.refreshFailed (.transport { message := "down" }))) := by
  intro cfg first before later s' o
  have hClassified := refresh_classified cfg ⟨"R", "id", "s"⟩ rfl ⟨by decide, by decide, by decide⟩
    ⟨1704110400000000, by decide, by decide⟩ {} [.failed { message := "down" }]
    (by simp [Reply.KeepsContract]) before later
    (by simp [before, later, Move.KeepsContract])
  have hTrip : s'.trips[0]? = some (.finished o) := by rfl
  refine ⟨hClassified.1 0 o hTrip, ?_⟩
  obtain ⟨k', hCall, hSame, -, hEnd⟩ := hClassified.2 0 ⟨.refresh, .waiting 0, false⟩ 0 rfl rfl
  have hCancel : k'.cancelRequested = false := by
    have hSelf : s'.calls[0]? = some ⟨.refresh, .finished (.failed (.refreshFailed (.transport
      { message := "down" }))), false⟩ := by rfl
    rw [Option.some.inj (hCall.symm.trans hSelf)]
  rcases hEnd rfl hCancel with hSent | ⟨o', hTrip', hPhase⟩
  · rw [hTrip] at hSent
    cases hSent
  · rw [hTrip, Option.some.injEq, Trip.finished.injEq] at hTrip'
    subst hTrip'
    rw [result?, phase?, hCall, Option.map_some, hPhase]
    rfl

/-- The first call of a cache without a token ends as the reply that is taken for it settles. -/
theorem result_of_first_call (clock : Instant) (reply : Reply) :
    let key : RefreshKey := ⟨"R", "id", "s"⟩
    let cfg : Config := { source := .refreshable key, url := Grant.defaultUrl, margin := .minute }
    let s := (start clock {} [reply]).play cfg [.act (.call .token), .turn, .turn, .turn, .turn, .turn]
    let settled := settlement cfg.nesting cfg.margin key clock {} reply
    s.trips[0]? = some (Trip.finished settled.outcome) ∧ s.result? 0 = some (resultOf 0 .token settled.outcome) :=
  ⟨rfl, rfl⟩

/-- A grant of 300000000000 seconds ends the call with an arithmetic error. -/
theorem overrunning_grant_escapes :
    let key : RefreshKey := ⟨"R", "id", "s"⟩
    let cfg : Config := { source := .refreshable key, url := Grant.defaultUrl, margin := .minute }
    let clock : Instant := ⟨1704110400000000, by decide, by decide⟩
    let body := (Utf8.encode "\x7b\"access_token\":\"t\",\"expires_in\":300000000000\x7d").toOption.getD []
    let s := (start clock {} [.response { status := 200, body }]).play cfg
      [.act (.call .token), .turn, .turn, .turn, .turn, .turn]
    key.IsScalar ∧ s.trips[0]? = some (Trip.finished (.failed .outOfRange)) ∧
      s.result? 0 = some (.failed .outOfRange) ∧
      ∀ cause, ¬Outcome.FailsWith (.failed .outOfRange) cause := by
  intro key cfg clock body
  have hGrant : (Reply.grant? cfg.nesting (.response { status := 200, body })).map (fun g => (g.token, g.seconds)) =
      some (("t" : Text), 300000000000) := by decide +kernel +zetaReduce
  obtain ⟨hTrip, hResult⟩ := result_of_first_call clock (.response { status := 200, body })
  rw [(settlement_of_overrun cfg.nesting cfg.margin key {} clock hGrant rfl rfl).1] at hTrip hResult
  exact ⟨⟨by decide, by decide, by decide⟩, hTrip, hResult, not_failsWith_outOfRange⟩

end State

end Cache

end Bearer
