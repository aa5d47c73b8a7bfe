import Bearer.Proofs.Cache.Redaction
import Bearer.Proofs.Cache.Settlement
import Bearer.Proofs.Cache.Trace
import Bearer.Proofs.Form
import Bearer.Proofs.Except

/-! Two runs with the same steps and with replies that differ only in the tokens that they grant go the same way:
after each step their redacted states are the same. -/

namespace Bearer

/-- Two secrets that look alike when they are masked: they are as long, and longer ones begin with the same
six code points. -/
structure Secret.Alike (first second : Text) : Prop where
  ne_nil : first ≠ []
  length_eq : second.length = first.length
  front_eq : 6 < first.length → second.take 6 = first.take 6

theorem Secret.Alike.mask_eq {first second : Text} (h : Secret.Alike first second) :
    mask logVisible first = mask logVisible second := by
  unfold mask logVisible
  rw [h.length_eq]
  split
  · rfl
  · next hLong =>
      have hFront : front 6 first = front 6 second := (h.front_eq (by omega)).symm
      rw [hFront]

/-- Two documents of a grant that differ in the token alone, if at all, and in members that do not count. -/
structure Grant.AlikeMembers (members members' : Entries Json) : Prop where
  expiry : members.get? "expires_in" = members'.get? "expires_in"
  token : members.get? "access_token" = members'.get? "access_token" ∨
    ∃ t t', members.get? "access_token" = some (.string t) ∧ members'.get? "access_token" = some (.string t') ∧
      Secret.Alike t t'

/-- Two bodies of a successful response: documents that differ in the token that they grant, or in both of them
the same container is one too many. -/
inductive Grant.AlikeBodies (nesting : Nat) (body body' : Bytes) : Prop where
  | granted (members members' : Entries Json) (hBody : Json.ofBytes body nesting = .ok (.object members))
      (hBody' : Json.ofBytes body' nesting = .ok (.object members')) (hMembers : Grant.AlikeMembers members members')
  | tooDeep (container : Json.Container) (hBody : Json.ofBytes body nesting = .error (.tooDeep container))
      (hBody' : Json.ofBytes body' nesting = .error (.tooDeep container))

/-- Two replies that are the same, or successful responses that differ in the token that they grant. -/
inductive Reply.Alike (nesting : Nat) : Reply → Reply → Prop where
  | same (r : Reply) : Alike nesting r r
  | successful (status : Int) (headers : Headers) (body body' : Bytes) (hStatus : 200 ≤ status ∧ status ≤ 299)
      (hBodies : Grant.AlikeBodies nesting body body') :
      Alike nesting (.response ⟨status, headers, body⟩) (.response ⟨status, headers, body'⟩)

/-- Two results of reading a grant: the same error, or grants that look alike. -/
inductive Grant.AlikeResults {ε : Type} : Except ε Grant → Except ε Grant → Prop where
  | error (e : ε) : AlikeResults (.error e) (.error e)
  | ok (g g' : Grant) (hSeconds : g.seconds = g'.seconds)
      (hToken : Secret.mask Secret.logVisible g.token = Secret.mask Secret.logVisible g'.token) :
      AlikeResults (.ok g) (.ok g')

theorem Grant.AlikeMembers.ofMembers {members members' : Entries Json} (h : AlikeMembers members members') :
    AlikeResults (Grant.ofMembers members) (Grant.ofMembers members') := by
  unfold Grant.ofMembers
  rw [← h.expiry]
  rcases h.token with hSame | ⟨t, t', hMember, hMember', hAlike⟩
  · have hToken : token? members' = token? members := by rw [token?, token?, hSame]
    rw [hToken]
    cases token? members with
    | none => exact .error _
    | some token =>
        dsimp only
        split
        · split
          · exact .ok _ _ rfl rfl
          · exact .error _
        · exact .error _
  · have hNil : t' ≠ [] := fun hNil => by
      have hLength := hAlike.length_eq
      rw [hNil] at hLength
      exact hAlike.ne_nil (List.length_eq_zero_iff.mp hLength.symm)
    have hToken : token? members = some ⟨t, hAlike.ne_nil⟩ := token?_eq_some_iff.mpr hMember
    have hToken' : token? members' = some ⟨t', hNil⟩ := token?_eq_some_iff.mpr hMember'
    rw [hToken, hToken']
    dsimp only
    split
    · split
      · exact .ok _ _ rfl hAlike.mask_eq
      · exact .error _
    · exact .error _

theorem Grant.AlikeBodies.read {nesting : Nat} {body body' : Bytes} (h : AlikeBodies nesting body body') :
    AlikeResults (Grant.read body nesting) (Grant.read body' nesting) := by
  unfold Grant.read
  cases h with
  | tooDeep container hBody hBody' =>
      rw [hBody, hBody']
      exact .error _
  | granted members members' hBody hBody' hMembers =>
      rw [hBody, hBody']
      dsimp only
      have hResults := hMembers.ofMembers
      generalize Grant.ofMembers members = result at hResults
      generalize Grant.ofMembers members' = result' at hResults
      cases hResults with
      | error e => exact .error _
      | ok g g' hSeconds hToken => exact .ok g g' hSeconds hToken

namespace Cache

def Settlement.redact (result : Settlement) : Settlement :=
  { result with outcome := result.outcome.redact, held := result.held.redact }

theorem redact_store (margin : Duration) (now : Instant) {held held' : HeldToken} {g g' : Grant}
    (hHeld : held.redact = held'.redact) (hSeconds : g.seconds = g'.seconds)
    (hToken : Secret.mask Secret.logVisible g.token = Secret.mask Secret.logVisible g'.token) :
    (store margin now held g).redact = (store margin now held' g').redact := by
  unfold store
  rw [← hSeconds, ← hToken]
  cases Duration.ofSeconds? g.seconds with
  | none => simp only [Settlement.redact, hHeld]
  | some lifetime =>
      dsimp only
      cases now.add? lifetime with
      | none =>
          simp only [Settlement.redact, HeldToken.redact, Option.map_some, HeldToken.expiresAt_of_redact hHeld]
      | some expiresAt => simp only [Settlement.redact, HeldToken.redact, Option.map_some, Outcome.redact]

theorem redact_refuse {key key' : RefreshKey} {held held' : HeldToken} (hKey : key.redact = key'.redact)
    (hHeld : held.redact = held'.redact) (cause : RefreshCause) :
    (refuse key held cause).redact = (refuse key' held' cause).redact := by
  simp only [refuse, Settlement.redact, hHeld, RefreshKey.clientId_of_redact hKey]

/-- What an answer does shows nothing of a key, of a token that is held, or of the token that it grants. -/
theorem redact_settlement (nesting : Nat) (margin : Duration) (now : Instant) {key key' : RefreshKey} {held held' : HeldToken}
    {r r' : Reply} (hKey : key.redact = key'.redact) (hHeld : held.redact = held'.redact) (hReply : r.Alike nesting r') :
    (settlement nesting margin key now held r).redact = (settlement nesting margin key' now held' r').redact := by
  cases hReply with
  | successful status headers body body' hStatus hBodies =>
      have hSuccess : (200 ≤ status && status < 300) = true := by
        simp only [Bool.and_eq_true, decide_eq_true_eq]
        omega
      simp only [settlement, Response.isSuccess, hSuccess, if_true]
      have hResults := hBodies.read
      generalize Grant.read body nesting = result at hResults
      generalize Grant.read body' nesting = result' at hResults
      cases hResults with
      | ok g g' hSeconds hToken => exact redact_store margin now hHeld hSeconds hToken
      | error e =>
          cases e with
          | malformed e => exact redact_refuse hKey hHeld _
          | tooDeep container => simp only [Settlement.redact, hHeld]
  | same r =>
      cases r with
      | response r =>
          simp only [settlement]
          split
          · cases Grant.read r.body nesting with
            | ok g => exact redact_store margin now hHeld rfl rfl
            | error e =>
                cases e with
                | malformed e => exact redact_refuse hKey hHeld _
                | tooDeep container => simp only [Settlement.redact, hHeld]
          · exact redact_refuse hKey hHeld _
      | failed e => exact redact_refuse hKey hHeld _
      | malformed message => exact redact_refuse hKey hHeld _
      | unauthorized message => simp only [settlement, Settlement.redact, hHeld]
      | raised e => simp only [settlement, Settlement.redact, hHeld]
      | interrupted message => simp only [settlement, Settlement.redact, hHeld]
      | cancelled => simp only [settlement, Settlement.redact, hHeld]

/-- The request of a refresh shows nothing of its key beyond the client identifier, and neither does the
reason why it can not be written. -/
theorem refreshRequest_of_redact (url : Text) {key key' : RefreshKey} (hKey : key.redact = key'.redact)
    (hWritable : key.refreshToken.IsScalar ∧ key.clientSecret.IsScalar)
    (hWritable' : key'.refreshToken.IsScalar ∧ key'.clientSecret.IsScalar) :
    (∃ fault, refreshRequest url key = .error fault ∧ refreshRequest url key' = .error fault) ∨
      ∃ r r', refreshRequest url key = .ok r ∧ refreshRequest url key' = .ok r' ∧ r.redact = r'.redact := by
  have hPairs : List.Forall₂ Form.Alike
      [("grant_type", "refresh_token"), ("refresh_token", key.refreshToken), ("client_id", key.clientId),
        ("client_secret", key.clientSecret)]
      [("grant_type", "refresh_token"), ("refresh_token", key'.refreshToken), ("client_id", key'.clientId),
        ("client_secret", key'.clientSecret)] := by
    rw [RefreshKey.clientId_of_redact hKey]
    have hName : (("refresh_token" : Text)).IsScalar := by decide
    have hName' : (("client_secret" : Text)).IsScalar := by decide
    exact .cons (.inl rfl) (.cons (.inr ⟨⟨hName, hWritable.1⟩, hName, hWritable'.1⟩)
      (.cons (.inl rfl) (.cons (.inr ⟨⟨hName', hWritable.2⟩, hName', hWritable'.2⟩) .nil)))
  unfold refreshRequest
  rcases Form.encode_of_alike hPairs with ⟨fault, hLeft, hRight⟩ | ⟨bytes, bytes', hLeft, hRight⟩
  · rw [hLeft, hRight]
    exact .inl ⟨fault, rfl, rfl⟩
  · rw [hLeft, hRight]
    exact .inr ⟨_, _, rfl, rfl, rfl⟩

/-- The same but for what must stay secret, which can be written in a request. -/
structure Config.Alike (cfg cfg' : Config) : Prop where
  redact : cfg.redact = cfg'.redact
  writable : ∀ key, cfg.source = .refreshable key → key.refreshToken.IsScalar ∧ key.clientSecret.IsScalar
  writable' : ∀ key, cfg'.source = .refreshable key → key.refreshToken.IsScalar ∧ key.clientSecret.IsScalar

namespace Config.Alike

variable {cfg cfg' : Config}

theorem margin (h : Config.Alike cfg cfg') : cfg.margin = cfg'.margin :=
  show cfg.redact.margin = cfg'.redact.margin from congrArg _ h.redact

theorem nesting (h : Config.Alike cfg cfg') : cfg.nesting = cfg'.nesting :=
  show cfg.redact.nesting = cfg'.redact.nesting from congrArg _ h.redact

theorem gated (h : Config.Alike cfg cfg') : cfg.gated = cfg'.gated :=
  show cfg.redact.gated = cfg'.redact.gated from congrArg _ h.redact

theorem url (h : Config.Alike cfg cfg') : cfg.url = cfg'.url :=
  show cfg.redact.url = cfg'.redact.url from congrArg _ h.redact

theorem source (h : Config.Alike cfg cfg') : cfg.source.redact = cfg'.source.redact :=
  show cfg.redact.source = cfg'.redact.source from congrArg _ h.redact

end Config.Alike

/-- The same action, or a supply of replies that are alike. -/
inductive Action.Alike (nesting : Nat) : Action → Action → Prop where
  | same (a : Action) (hSupply : ∀ replies, a ≠ .supply replies) : Alike nesting a a
  | supply (replies replies' : List Reply) (hReplies : List.Forall₂ (Reply.Alike nesting) replies replies') :
      Alike nesting (.supply replies) (.supply replies')

inductive Move.Alike (nesting : Nat) : Move → Move → Prop where
  | act (a a' : Action) (h : a.Alike nesting a') : Alike nesting (.act a) (.act a')
  | turn : Alike nesting .turn .turn

namespace State

variable {cfg cfg' : Config} {s s' : State} {t : TripId} {nesting : Nat}

/-- Two states show the same, and will get replies that are alike. -/
structure Alike (nesting : Nat) (s s' : State) : Prop where
  redact : s.redact = s'.redact
  replies : List.Forall₂ (Reply.Alike nesting) s.replies s'.replies

theorem takeReply_alike {replies replies' : List Reply} (h : List.Forall₂ (Reply.Alike nesting) replies replies') :
    (takeReply replies).1.Alike nesting (takeReply replies').1 ∧
      List.Forall₂ (Reply.Alike nesting) (takeReply replies).2 (takeReply replies').2 := by
  cases h with
  | nil => exact ⟨.same _, .nil⟩
  | cons hFirst hRest =>
      cases hRest with
      | nil => exact ⟨hFirst, .cons hFirst .nil⟩
      | cons hNext hRest => exact ⟨hFirst, .cons hNext hRest⟩

theorem replies_retire (t : TripId) (s : State) : (s.retire t).replies = s.replies := by
  unfold retire
  split <;> rfl

theorem replies_deliver (t : TripId) (c : CallId) (s : State) : (s.deliver t c).replies = s.replies := by
  unfold deliver
  split
  · split <;> rfl
  · rfl

theorem replies_act {a : Action} (hSupply : ∀ replies, a ≠ .supply replies) (s : State) :
    (s.act a).replies = s.replies := by
  cases a with
  | call call => rfl
  | cancel c => exact (cancel_frame c s).1.replies
  | advance micros =>
      obtain ⟨clock, hAct⟩ := act_advance s micros
      rw [hAct]
  | supply replies => exact absurd rfl (hSupply replies)
  | release =>
      rw [act, release]
      split <;> rfl
  | rest => rfl

/-- Round trips that show the same are the same until they finish. -/
theorem trip_cases_of_redact {trip trip' : Option Trip} (h : trip.map Trip.redact = trip'.map Trip.redact) :
    trip = trip' ∨ (∃ o, trip = some (.finished o)) ∧ ∃ o, trip' = some (.finished o) := by
  cases trip with
  | none => exact .inl (Option.map_eq_none_iff.mp h.symm).symm
  | some trip =>
      obtain ⟨trip', rfl, hRedact⟩ := Option.map_eq_some_iff.mp h.symm
      cases trip with
      | finished o =>
          cases trip' with
          | finished o' => exact .inr ⟨⟨o, rfl⟩, o', rfl⟩
          | _ => cases hRedact
      | _ => cases trip' <;> first | exact .inl rfl | cases hRedact

namespace Alike

theorem ready (h : Alike nesting s s') : s.ready = s'.ready :=
  show s.redact.ready = s'.redact.ready from congrArg _ h.redact

theorem clock (h : Alike nesting s s') : s.clock = s'.clock :=
  show s.redact.clock = s'.redact.clock from congrArg _ h.redact

theorem held (h : Alike nesting s s') : s.held.redact = s'.held.redact :=
  show s.redact.held = s'.redact.held from congrArg _ h.redact

theorem pop (h : Alike nesting s s') (rest : List Task) :
    Alike nesting { s with ready := rest } { s' with ready := rest } where
  redact := show { s.redact with ready := rest } = { s'.redact with ready := rest } by rw [h.redact]
  replies := h.replies

/-- What is done to both states in the same way shows on the redacted ones. -/
theorem of_redact (h : Alike nesting s s') {u u' : State} (f : State → State) (hLeft : u.redact = f s.redact)
    (hRight : u'.redact = f s'.redact) (hReplies : u.replies = s.replies) (hReplies' : u'.replies = s'.replies) :
    Alike nesting u u' where
  redact := by rw [hLeft, hRight, h.redact]
  replies := by
    rw [hReplies, hReplies']
    exact h.replies

theorem finishTrip (h : Alike nesting s s') (t : TripId) {o o' : Outcome} (hOutcome : o.redact = o'.redact) :
    Alike nesting (s.finishTrip t o) (s'.finishTrip t o') where
  redact := by rw [redact_finishTrip, redact_finishTrip, h.redact, hOutcome]
  replies := h.replies

theorem observe (h : Alike nesting s s') {events events' : List Event}
    (hEvents : events.map Event.redact = events'.map Event.redact) :
    Alike nesting (s.observe events) (s'.observe events') where
  redact := by rw [redact_observe, redact_observe, h.redact, hEvents]
  replies := h.replies

theorem answerTrip (h : Alike cfg.nesting s s') (hConfig : cfg.Alike cfg') {key key' : RefreshKey}
    (hKey : key.redact = key'.redact) (t : TripId) :
    Alike cfg.nesting (s.answerTrip cfg key t) (s'.answerTrip cfg' key' t) := by
  obtain ⟨hReply, hLeft⟩ := takeReply_alike h.replies
  have hResult : (settlement cfg.nesting cfg.margin key s.clock s.held (takeReply s.replies).1).redact =
      (settlement cfg'.nesting cfg'.margin key' s'.clock s'.held (takeReply s'.replies).1).redact := by
    rw [← hConfig.nesting, ← hConfig.margin, ← h.clock]
    exact redact_settlement cfg.nesting cfg.margin s.clock hKey h.held hReply
  rw [answerTrip_eq, answerTrip_eq]
  generalize settlement cfg.nesting cfg.margin key s.clock s.held (takeReply s.replies).1 = result at hResult
  generalize settlement cfg'.nesting cfg'.margin key' s'.clock s'.held (takeReply s'.replies).1 = result' at hResult
  obtain ⟨hOutcome, hStored, hNotes⟩ := Settlement.mk.inj hResult
  refine finishTrip (observe ⟨?_, hLeft⟩ ?_) t hOutcome
  · change { s.redact with held := result.held.redact } = { s'.redact with held := result'.held.redact }
    rw [h.redact, hStored]
  · rw [show result.notes = result'.notes from hNotes]

theorem startTrip (h : Alike cfg.nesting s s') (hConfig : cfg.Alike cfg') {key key' : RefreshKey}
    (hSource : cfg.source = .refreshable key) (hSource' : cfg'.source = .refreshable key') (t : TripId) :
    Alike cfg.nesting (s.startTrip cfg key t) (s'.startTrip cfg' key' t) := by
  have hKey : key.redact = key'.redact := by
    have hSame := hConfig.source
    rw [hSource, hSource'] at hSame
    exact Source.refreshable.inj hSame
  have hStarted : Alike cfg.nesting (s.observe [.note (.started key.clientId)]) (s'.observe [.note (.started key'.clientId)]) :=
    h.observe (by rw [RefreshKey.clientId_of_redact hKey])
  unfold State.startTrip
  rw [← hConfig.url, ← hConfig.gated]
  rcases refreshRequest_of_redact cfg.url hKey (hConfig.writable key hSource) (hConfig.writable' key' hSource') with
    ⟨fault, hLeft, hRight⟩ | ⟨r, r', hLeft, hRight, hRequest⟩
  · rw [hLeft, hRight]
    exact hStarted.finishTrip t rfl
  · rw [hLeft, hRight]
    dsimp only
    have hSent : Alike cfg.nesting ((s.observe [.note (.started key.clientId)]).observe [.request r])
        ((s'.observe [.note (.started key'.clientId)]).observe [.request r']) :=
      hStarted.observe (by simp only [List.map_cons, List.map_nil, Event.redact, hRequest])
    split
    · exact hSent.of_redact (fun s => s.setTrip t .sent) (redact_setTrip t .sent _) (redact_setTrip t .sent _) rfl rfl
    · exact hSent.answerTrip hConfig hKey t

theorem stepTrip (h : Alike cfg.nesting s s') (hConfig : cfg.Alike cfg') (t : TripId) :
    Alike cfg.nesting (s.stepTrip cfg t) (s'.stepTrip cfg' t) := by
  have hSources := hConfig.source
  have hTrips : (s.trips[t]?).map Trip.redact = (s'.trips[t]?).map Trip.redact := by
    rw [← trips_redact, ← trips_redact, h.redact]
  unfold State.stepTrip
  cases hSource : cfg.source with
  | fixed token =>
      rw [hSource] at hSources
      cases hSource' : cfg'.source with
      | fixed token' => exact h
      | refreshable key' => rw [hSource'] at hSources; cases hSources
  | refreshable key =>
      rw [hSource] at hSources
      cases hSource' : cfg'.source with
      | fixed token' => rw [hSource'] at hSources; cases hSources
      | refreshable key' =>
          rw [hSource'] at hSources
          rcases trip_cases_of_redact hTrips with hSame | ⟨⟨o, hTrip⟩, o', hTrip'⟩
          · rw [← hSame]
            cases s.trips[t]? with
            | none => exact h
            | some trip =>
                cases trip with
                | starting => exact h.startTrip hConfig hSource hSource' t
                | released => exact h.answerTrip hConfig (Source.refreshable.inj hSources) t
                | sent => exact h
                | finished o => exact h
          · rw [hTrip, hTrip']
            exact h

theorem turn (h : Alike cfg.nesting s s') (hConfig : cfg.Alike cfg') : Alike cfg.nesting (s.turn cfg) (s'.turn cfg') := by
  unfold State.turn
  rw [← h.ready]
  cases s.ready with
  | nil => exact h
  | cons task rest =>
      have hPopped := h.pop rest
      cases task with
      | call c =>
          have hRight := redact_stepCall cfg' c { s' with ready := rest }
          rw [← hConfig.redact] at hRight
          exact hPopped.of_redact (fun s => s.stepCall cfg.redact c) (redact_stepCall cfg c _) hRight
            (stepCall_effect cfg c _).1.replies (stepCall_effect cfg' c _).1.replies
      | trip t => exact hPopped.stepTrip hConfig t
      | retire t =>
          exact hPopped.of_redact (fun s => s.retire t) (redact_retire t _) (redact_retire t _)
            (replies_retire t _) (replies_retire t _)
      | deliver t c =>
          exact hPopped.of_redact (fun s => s.deliver t c) (redact_deliver t c _) (redact_deliver t c _)
            (replies_deliver t c _) (replies_deliver t c _)

theorem act (h : Alike cfg.nesting s s') {a a' : Action} (hAction : a.Alike cfg.nesting a') : Alike cfg.nesting (s.act a) (s'.act a') := by
  cases hAction with
  | same a hSupply =>
      exact h.of_redact (fun s => s.act (redaction.action a)) (redact_act a s) (redact_act a s')
        (replies_act hSupply s) (replies_act hSupply s')
  | supply replies replies' hReplies => exact ⟨h.redact, hReplies⟩

theorem move (h : Alike cfg.nesting s s') (hConfig : cfg.Alike cfg') {m m' : Move} (hMove : m.Alike cfg.nesting m') :
    Alike cfg.nesting (s.move cfg m) (s'.move cfg' m') := by
  cases hMove with
  | act a a' hAction => exact h.act hAction
  | turn => exact h.turn hConfig

theorem play (h : Alike cfg.nesting s s') (hConfig : cfg.Alike cfg') {moves moves' : List Move}
    (hMoves : List.Forall₂ (Move.Alike cfg.nesting) moves moves') : Alike cfg.nesting (s.play cfg moves) (s'.play cfg' moves') := by
  induction hMoves generalizing s s' with
  | nil => exact h
  | cons hMove _ ih => exact ih (h.move hConfig hMove)

/-- Two states that show the same settle in as many turns. -/
theorem turns (h : Alike cfg.nesting s s') (hConfig : cfg.Alike cfg') (bound : Nat) :
    Alike cfg.nesting (s.turns cfg bound) (s'.turns cfg' bound) := by
  induction bound generalizing s s' with
  | zero => exact h
  | succ bound ih =>
      rw [State.turns, State.turns, ← h.ready]
      split
      · exact h
      · exact ih (h.turn hConfig)

theorem step (h : Alike cfg.nesting s s') (hConfig : cfg.Alike cfg') {actions actions' : List Action}
    (hActions : List.Forall₂ (Action.Alike cfg.nesting) actions actions') :
    Alike cfg.nesting (s.step cfg actions) (s'.step cfg' actions') := by
  have hActed : Alike cfg.nesting (actions.foldl State.act s) (actions'.foldl State.act s') := by
    induction hActions generalizing s s' with
    | nil => exact h
    | cons hAction _ ih => exact ih (h.act hAction)
  rw [State.step, State.step, settle, settle, ← weight_redact (actions.foldl State.act s), hActed.redact,
    weight_redact]
  exact hActed.turns hConfig _

theorem run (h : Alike cfg.nesting s s') (hConfig : cfg.Alike cfg') {steps steps' : List (List Action)}
    (hSteps : List.Forall₂ (List.Forall₂ (Action.Alike cfg.nesting)) steps steps') :
    Alike cfg.nesting (s.run cfg steps) (s'.run cfg' steps') := by
  induction hSteps generalizing s s' with
  | nil => exact h
  | cons hActions _ ih => exact ih (h.step hConfig hActions)

end Alike

/-- What is seen of two runs is the same: the log of every sink; the results of the calls, but for the tokens in
them; the expiry; the requests, but for their bodies, and the order of all this. -/
structure SameView (s s' : State) : Prop where
  log : ∀ (sink : Log.Sink) (stamp : Nat → Instant), s.records sink stamp = s'.records sink stamp
  results : ∀ c, (s.result? c).map Result.redact = (s'.result? c).map Result.redact
  expiry : s.held.expiresAt = s'.held.expiresAt
  requests : s.requests.map Request.redact = s'.requests.map Request.redact
  trace : s.trace.map Event.redact = s'.trace.map Event.redact

theorem notes_redact (s : State) : s.redact.notes = s.notes := redaction.notes_state s

theorem requests_redact (s : State) : s.redact.requests = s.requests.map Request.redact :=
  redaction.requests_state s

theorem result?_redact (c : CallId) (s : State) : s.redact.result? c = (s.result? c).map Result.redact :=
  redaction.result?_state c s

theorem Alike.sameView (h : Alike nesting s s') : SameView s s' where
  log sink stamp := by
    rw [records, ← notes_redact, h.redact, notes_redact, records]
  results c := by rw [← result?_redact, ← result?_redact, h.redact]
  expiry := HeldToken.expiresAt_of_redact h.held
  requests := by rw [← requests_redact, ← requests_redact, h.redact]
  trace := show s.redact.trace = s'.redact.trace by rw [h.redact]

/-- Secrets do not reach the log. Take two runs with the same moves, or the same steps, whose keys differ only in
refresh token and client secret, both of which can be written, and which are given tokens, if any, at the
start, and replies that are the same but for the tokens that they grant. As long as tokens that differ look
alike when they are masked, all that is seen of the two runs is the same, and at every moment. -/
theorem secrets_stay_out_of_log (cfg cfg' : Config) (hConfig : cfg.Alike cfg') (clock : Instant)
    (held held' : HeldToken) (hHeld : held.redact = held'.redact) (replies replies' : List Reply)
    (hReplies : List.Forall₂ (Reply.Alike cfg.nesting) replies replies') :
    (∀ moves moves', List.Forall₂ (Move.Alike cfg.nesting) moves moves' →
      SameView ((start clock held replies).play cfg moves) ((start clock held' replies').play cfg' moves')) ∧
    ∀ steps steps', List.Forall₂ (List.Forall₂ (Action.Alike cfg.nesting)) steps steps' →
      SameView ((start clock held replies).run cfg steps) ((start clock held' replies').run cfg' steps') := by
  have hStart : Alike cfg.nesting (start clock held replies) (start clock held' replies') := by
    refine ⟨?_, hReplies⟩
    simp only [start, redact, Guise.state]
    rw [show redaction.held held = redaction.held held' from hHeld]
    rfl
  exact ⟨fun moves moves' hMoves => (hStart.play hConfig hMoves).sameView,
    fun steps steps' hSteps => (hStart.run hConfig hSteps).sameView⟩

/-- Two runs with different keys, which are granted different tokens, show the same. -/
theorem different_tokens_look_alike :
    let cfg (refreshToken clientSecret : Text) : Config :=
      { source := .refreshable ⟨refreshToken, "id", clientSecret⟩, url := Grant.defaultUrl, margin := .minute }
    let clock : Instant := ⟨1704110400000000, by decide, by decide⟩
    let body (token : Text) : Bytes := (Utf8.encode (("\x7b\"access_token\":\"" : Text) ++ token ++
      ("\",\"expires_in\":3600\x7d" : Text))).toOption.getD []
    let s := (start clock {} [.response { status := 200, body := body "sl.AAAA1" }]).run (cfg "R" "s")
      [[.call .token]]
    let s' := (start clock {} [.response { status := 200, body := body "sl.AAAA2" }]).run (cfg "Q" "z")
      [[.call .token]]
    s.held.token = some ("sl.AAAA1" : Text) ∧ s'.held.token = some ("sl.AAAA2" : Text) ∧ SameView s s' := by
  intro cfg clock body s s'
  have hConfig : (cfg "R" "s").Alike (cfg "Q" "z") := by
    refine ⟨rfl, ?_, ?_⟩
    · intro key hKey
      cases hKey
      exact ⟨by decide, by decide⟩
    · intro key hKey
      cases hKey
      exact ⟨by decide, by decide⟩
  have hBody : Json.ofBytes (body "sl.AAAA1") Json.usualNesting =
      .ok (.object [("access_token", .string "sl.AAAA1"), ("expires_in", .int 3600)]) := by
    refine eq_ok_of_toOption ?_
    dsimp only [body]
    decide +kernel
  have hBody' : Json.ofBytes (body "sl.AAAA2") Json.usualNesting =
      .ok (.object [("access_token", .string "sl.AAAA2"), ("expires_in", .int 3600)]) := by
    refine eq_ok_of_toOption ?_
    dsimp only [body]
    decide +kernel
  have hMembers : Grant.AlikeMembers [("access_token", .string "sl.AAAA1"), ("expires_in", .int 3600)]
      [("access_token", .string "sl.AAAA2"), ("expires_in", .int 3600)] := by
    refine ⟨by decide +kernel, .inr ⟨"sl.AAAA1", "sl.AAAA2", by decide, by decide, ?_⟩⟩
    exact ⟨by decide, by decide, fun _ => by decide⟩
  have hReply : Reply.Alike Json.usualNesting (.response { status := 200, body := body "sl.AAAA1" })
      (.response { status := 200, body := body "sl.AAAA2" }) :=
    .successful 200 [] _ _ (by decide) (.granted _ _ hBody hBody' hMembers)
  have hSteps : List.Forall₂ (List.Forall₂ (Action.Alike Json.usualNesting)) [[.call .token]] [[.call .token]] :=
    .cons (.cons (.same (.call .token) (by simp)) .nil) .nil
  have hView := (secrets_stay_out_of_log (cfg "R" "s") (cfg "Q" "z") hConfig clock {} {} rfl
    [.response { status := 200, body := body "sl.AAAA1" }] [.response { status := 200, body := body "sl.AAAA2" }]
    (.cons hReply .nil)).2 [[.call .token]] [[.call .token]] hSteps
  refine ⟨?_, ?_, hView⟩
  · dsimp only [s, cfg, clock, body]
    decide +kernel
  · dsimp only [s', cfg, clock, body]
    decide +kernel

end State

end Cache

end Bearer
