import Bearer.Proofs.Command.Ending
import Bearer.Proofs.Except

/-! The transport over the client keeps its contract unless the client can not read the address of a request. The
client's error goes then through the transport, through a cache over it and through the program. -/

namespace Bearer

namespace Client

/-- The address of the request can not be read, and that is what the client comes back with. -/
structure Unreadable (r : Request) (client : Service) (e : UrlError) : Prop where
  address : Url.read r.url = .error e
  raised : client = .other (.raised (Refusal.address e).error)

/-- What the client comes back with: a response, a failure of its own family, or that it can not read
the address. -/
inductive ComesBack (r : Request) : Service → Prop where
  | answer (response : Response) : ComesBack r (.answer response)
  | broken (e : Foreign) : ComesBack r (.broken e)
  | unreadable (client : Service) (e : UrlError) (hUnreadable : Unreadable r client e) : ComesBack r client

/-- The error of the client, of whatever family. -/
def Service.error? : Service → Option Foreign
  | .broken e | .other (.raised e) => some e
  | .answer _ | .other _ => none

/-- What the contract asks for: the status and the body of the client's response, or an error that
names the method and the address of the request and has the client's as its cause. -/
inductive Honours (r : Request) (client : Service) : Reply → Prop where
  | response (answer response : Response) (hAnswer : client = .answer answer)
      (hStatus : response.status = answer.status) (hBody : response.body = answer.body) :
      Honours r client (.response response)
  | failed (e : Foreign) (error : TransportError) (hRaised : client.error? = some e)
      (hMessage : error.message
        = r.method ++ (" " : Text) ++ r.url ++ (" failed: " : Text) ++ e.message)
      (hCause : error.cause = some e) : Honours r client (.failed error)

/-- A reply of the transport to a request. -/
def Replies (r : Request) (reply : Reply) : Prop := ∃ client, ComesBack r client ∧ reply = handOn r client

variable {r : Request} {client : Service} {e : UrlError}

theorem Unreadable.handOn_eq (h : Unreadable r client e) :
    handOn r client = .raised (Refusal.address e).error := by
  rw [h.raised]
  rfl

theorem Unreadable.not_honours (h : Unreadable r client e) : ¬Honours r client (handOn r client) := by
  rw [h.handOn_eq]
  exact nofun

theorem ComesBack.honours_or (h : ComesBack r client) :
    Honours r client (handOn r client) ∨ ∃ e, Unreadable r client e := by
  cases h with
  | answer response => exact .inl (.response response _ rfl rfl rfl)
  | broken e => exact .inl (.failed e (failure r e) rfl rfl rfl)
  | unreadable _ e hUnreadable => exact .inr ⟨e, hUnreadable⟩

/-- The contract is kept unless the address can not be read. -/
theorem ComesBack.honours_iff (h : ComesBack r client) :
    Honours r client (handOn r client) ↔ ∀ e, ¬Unreadable r client e := by
  constructor
  · intro hHonours e hUnreadable
    exact hUnreadable.not_honours hHonours
  · intro hNone
    exact h.honours_or.resolve_right fun ⟨e, hUnreadable⟩ => hNone e hUnreadable

/-- With an address that can not be read nothing is sent, whatever the server would do. -/
theorem attempt_of_unreadable (hAddress : Url.read r.url = .error e) (closed : Bool) (server : Service) :
    attempt closed r server = { result := .other (.raised (Refusal.address e).error) } := by
  have hPrepare : prepare r = .error (.address e) := by
    rw [prepare, hAddress]
    rfl
  rw [attempt, hPrepare]

theorem unreadable_attempt (hAddress : Url.read r.url = .error e) (closed : Bool) (server : Service) :
    Unreadable r (attempt closed r server).result e where
  address := hAddress
  raised := by rw [attempt_of_unreadable hAddress]

theorem exchange_of_unreadable (hAddress : Url.read r.url = .error e) (closed : Bool) (server : Service) :
    exchange closed r server = { reply := .raised (Refusal.address e).error } := by
  rw [exchange, attempt_of_unreadable hAddress]
  rfl

/-- For a request the transport keeps its contract exactly unless the client can not read the address. Then the error
of the client goes through the transport, nothing having been sent. -/
structure Contract (r : Request) : Prop where
  kept : ∀ client, ComesBack r client → (Honours r client (handOn r client) ↔ ∀ e, ¬Unreadable r client e)
  handed : ∀ client e, ComesBack r client → Unreadable r client e → handOn r client = .raised ⟨"InvalidURL", e.message⟩
  unsent : ∀ e closed server, Url.read r.url = .error e → Unreadable r (attempt closed r server).result e ∧
    exchange closed r server = { reply := .raised ⟨"InvalidURL", e.message⟩ }

theorem contract (r : Request) : Contract r where
  kept _ hComes := hComes.honours_iff
  handed _ _ _ hUnreadable := hUnreadable.handOn_eq
  unsent _ closed server hAddress :=
    ⟨unreadable_attempt hAddress closed server, exchange_of_unreadable hAddress closed server⟩

end Client

namespace Cache

open Client

/-- How a refresh ends, by what the client came back with. -/
inductive Reports (nesting : Nat) (request : Request) (a : Answer) (client : Service) : Outcome → Prop where
  | answered (response : Response) (o : Outcome) (hAnswer : client = .answer response)
      (hYields : a.Yields nesting o) : Reports nesting request a client o
  /-- The refresh fails, and the error of the transport is its cause. -/
  | broken (e : Foreign) (o : Outcome) (hBroken : client = .broken e)
      (hFails : o.FailsWith (failure request e).report) : Reports nesting request a client o
  /-- The refresh fails with the error of the client itself. -/
  | unreadable (e : UrlError) (hUnreadable : Unreadable request client e) :
      Reports nesting request a client (.failed (.foreign (Refusal.address e).error))

theorem url_of_refreshRequest {url : Text} {key : RefreshKey} {request : Request}
    (hRequest : refreshRequest url key = .ok request) : request.url = url := by
  obtain ⟨body, -, hSame⟩ := bind_eq_ok.mp hRequest
  cases hSame
  rfl

theorem Reports.not_failsWith {nesting : Nat} {request : Request} {a : Answer} {client : Service} {o : Outcome}
    {e : UrlError} (h : Reports nesting request a client o) (hUnreadable : Unreadable request client e)
    (cause : Report) : ¬o.FailsWith cause := by
  have hRaised := hUnreadable.raised
  cases h with
  | answered response _ hAnswer hYields => cases hAnswer.symm.trans hRaised
  | broken e' _ hBroken hFails => cases hBroken.symm.trans hRaised
  | unreadable e' hUnreadable' =>
      rintro ⟨error, hSame, hReport⟩
      cases hSame
      cases hReport

theorem reports_settlement {request : Request} {client : Service} (nesting : Nat) (margin : Duration)
    (key : RefreshKey) (held : HeldToken) {a : Answer} (hComes : ComesBack request client)
    (hReply : a.reply = handOn request client) :
    Reports nesting request a client (settlement nesting margin key a.now held a.reply).outcome := by
  cases hComes with
  | answer response =>
      have hKeeps : a.reply.KeepsContract := by
        rw [hReply]
        trivial
      exact .answered response _ rfl (yields_settlement nesting margin key held hKeeps)
  | broken e =>
      rw [hReply]
      exact .broken e _ rfl (failsWith_refreshFailed (.transport (failure request e)))
  | unreadable _ e hUnreadable =>
      rw [hReply, hUnreadable.handOn_eq]
      exact .unreadable e hUnreadable

namespace State

/-- A move takes the answer of a round trip over the transport, which ends as what the client came back with calls
for. -/
structure TakesReport (cfg : Config) (request : Request) (t : TripId) (o : Outcome) (a : Answer) (client : Service)
    (s : State) (m : Move) : Prop where
  takes : Takes cfg t a o s m
  comes : ComesBack request client
  reply : a.reply = handOn request client
  reports : Reports cfg.nesting request a client o
  unreadable : ∀ e cause, Unreadable request client e → ¬o.FailsWith cause

variable {cfg : Config} {key : RefreshKey} {request : Request}

/-- Over the transport every round trip ends with the move that takes its answer, as what the client came back with
calls for. -/
theorem reports_of_play (hSource : cfg.source = .refreshable key)
    (hRequest : refreshRequest cfg.url key = .ok request) (clock : Instant) (held : HeldToken)
    {replies : List Reply} (hReplies : ∀ reply ∈ replies, Replies request reply) {moves : List Move}
    (hMoves : ∀ m ∈ moves, m.Supplies (Replies request)) {t : TripId} {o : Outcome}
    (hEnd : ((start clock held replies).play cfg moves).trips[t]? = some (.finished o)) :
    (start clock held replies).Sometime cfg (fun s m => ∃ a client, TakesReport cfg request t o a client s m)
      moves := by
  have hDefault : Replies request (.response { status := 200 }) := ⟨.answer { status := 200 }, .answer _, rfl⟩
  have hSupplied : (start clock held replies).Always cfg
      (fun s m => ∀ a, s.answer? cfg m = some a → Replies request a.reply) moves :=
    always_of_answers (supplied_answers hDefault hReplies hMoves)
  refine ((takes_of_play hSource hRequest hEnd).resolve_left (by simp [start])).and_always
    (hSupplied.imp fun s m hAnswer => ?_)
  rintro ⟨a, hTakes, rfl⟩
  obtain ⟨client, hComes, hReply⟩ := hAnswer a hTakes.answer
  have hReports := reports_settlement cfg.nesting cfg.margin key s.held hComes hReply
  exact ⟨a, client, hTakes, hComes, hReply, hReports, fun e cause hUnreadable =>
    hReports.not_failsWith hUnreadable cause⟩

/-- How the round trips and the calls of a cache over the transport end. -/
structure Reported (cfg : Config) (request : Request) (first : State) (before later : List Move) : Prop where
  trips : ∀ (t : TripId) (o : Outcome), ((first.play cfg before).play cfg later).trips[t]? = some (.finished o) →
    first.Sometime cfg (fun s m => ∃ a client, TakesReport cfg request t o a client s m) (before ++ later)
  calls : ∀ (c : CallId) (k : Caller) (t : TripId),
    (first.play cfg before).calls[c]? = some k → k.phase = .waiting t →
      let s' := (first.play cfg before).play cfg later
      ∃ k' : Caller, s'.calls[c]? = some k' ∧ k'.call = k.call ∧ Awaited s' c t k' ∧
        (s'.ready = [] → k'.cancelRequested = false → s'.trips[t]? = some .sent ∨
          ∃ o, s'.trips[t]? = some (.finished o) ∧ k'.phase = .finished (resultOf c k.call o))

theorem reported (hSource : cfg.source = .refreshable key) (hRequest : refreshRequest cfg.url key = .ok request)
    (clock : Instant) (held : HeldToken) {replies : List Reply}
    (hReplies : ∀ reply ∈ replies, Replies request reply) {before later : List Move}
    (hMoves : ∀ m ∈ before ++ later, m.Supplies (Replies request)) :
    Reported cfg request (start clock held replies) before later where
  trips t o hEnd := by
    rw [← play_append] at hEnd
    exact reports_of_play hSource hRequest clock held hReplies hMoves hEnd
  calls c k t hCall hPhase := by
    intro s'
    have hCoherent : Coherent cfg none s'.ready s' := ((Coherent.start clock held replies).play before).play later
    obtain ⟨k', hCall', hSame, hAwaited⟩ := (Awaited.waiting hPhase).play cfg hCall later
    refine ⟨k', hCall', hSame, hAwaited, fun hReady hCancel => ?_⟩
    rw [← hSame]
    exact hAwaited.settled hCoherent hReady hSource hCall' hCancel

end State

end Cache

namespace Command

open Client Cache

/-- With the settings of a place the program asks for a token by this request. -/
structure Place.Asks (place : Place) (s : Settings) (key : RefreshKey) (request : Request) : Prop
    extends Ready place s (.refreshable key {}) where
  margin : s.refreshMargin ≤ Duration.mostSeconds
  request : refreshRequest s.tokenUrl key = .ok request

variable {place : Place} {s : Settings} {key : RefreshKey} {request : Request}

/-- The program ends as the reply to its request settles. -/
theorem token_of_asks (h : place.Asks s key request) (asJson : Bool) :
    ∃ (margin : Duration) (records closing : List Log.Record),
      transcript place (token place s asJson) = served place s records closing [place.send request]
        (lineOf place asJson (drawn (settlement place.nesting margin key place.now {} (place.send request).reply))) := by
  have hCourse := course_of_read h.read asJson
  generalize transcript place (token place s asJson) = t at hCourse ⊢
  cases hCourse with
  | overrun hOver => exact absurd hOver (Int.not_lt.mpr h.margin)
  | unresolved e _ hResolve => cases h.resolve.symm.trans hResolve
  | served credential margin exchanges result records closing _ hResolve hObtains _ =>
      cases h.resolve.symm.trans hResolve
      cases hObtains with
      | unwritten _ fault hFault => cases h.request.symm.trans hFault
      | answered _ request' hRequest =>
          cases h.request.symm.trans hRequest
          exact ⟨margin, records, closing, rfl⟩

theorem token_of_failed (h : place.Asks s key request) {e : TransportError}
    (hReply : (place.send request).reply = .failed e) (asJson : Bool) :
    (transcript place (token place s asJson)).Complains (("Failed to refresh access token: " : Text) ++ e.message) := by
  obtain ⟨margin, records, closing, hToken⟩ := token_of_asks h asJson
  rw [hToken, hReply]
  exact served_complains rfl records closing _

/-- An error that is not the library's own ends the program. -/
theorem token_of_raised (h : place.Asks s key request) {e : Foreign}
    (hReply : (place.send request).reply = .raised e) (asJson : Bool) :
    (transcript place (token place s asJson)).ending = .raised (.foreign e.kind e.message) := by
  obtain ⟨margin, records, closing, hToken⟩ := token_of_asks h asJson
  rw [hToken, hReply]
  rfl

/-- How the program ends, by what the client came back with. -/
structure Reported (place : Place) (s : Settings) (r : Request) (client : Service) (asJson : Bool) : Prop where
  complains : ∀ e, client = .broken e → (transcript place (token place s asJson)).Complains
    (("Failed to refresh access token: " : Text) ++ (failure r e).message)
  raised : ∀ e, Unreadable r client e →
    (transcript place (token place s asJson)).ending = .raised (.foreign "InvalidURL" e.message)

theorem reported (h : place.Asks s key request) {client : Service}
    (hReply : (place.send request).reply = handOn request client) (asJson : Bool) :
    Reported place s request client asJson where
  complains e hBroken := token_of_failed h (by rw [hReply, hBroken]; rfl) asJson
  raised e hUnreadable := token_of_raised h (hReply.trans hUnreadable.handOn_eq) asJson

/-- For every request the transport keeps its contract exactly unless the client can not read the address.
Then the error of the client goes through the transport, nothing having been sent. If the request is the one of
a cache, over the transport a round trip ends as what the client came back with calls for, and a call that waits
for it ends with its outcome: a request that was not completed is reported as a failed refresh, with a line of
the program that tells why, but an address that can not be read is reported as the error of the client, with
which the program ends too. -/
theorem contract_kept_unless_unreadable (r : Request) :
    Contract r ∧
    (∀ (cfg : Config) (key : RefreshKey) (clock : Instant) (held : HeldToken) (replies : List Reply)
        (before later : List Move),
      cfg.source = .refreshable key → refreshRequest cfg.url key = .ok r →
      (∀ reply ∈ replies, Replies r reply) → (∀ m ∈ before ++ later, m.Supplies (Replies r)) →
      State.Reported cfg r (State.start clock held replies) before later) ∧
    ∀ (place : Place) (s : Settings) (key : RefreshKey) (client : Service) (asJson : Bool),
      place.Asks s key r → (place.send r).reply = handOn r client → Reported place s r client asJson :=
  ⟨contract r,
    fun _ _ clock held _ _ _ hSource hRequest hReplies hMoves =>
      State.reported hSource hRequest clock held hReplies hMoves,
    fun _ _ _ _ asJson hAsks hReply => reported hAsks hReply asJson⟩

/-- An address with a port that is no number. -/
def portUrl : Text := "https://localhost:port/token"

theorem read_portUrl : Url.read portUrl = .error (.port "port") :=
  eq_error_of_errorOf? (by decide +kernel)

/-- With it what the client comes back with goes through the transport. -/
theorem bad_port_escapes :
    let r : Request := { method := "POST", url := portUrl, headers := [], body := [] }
    let client := (attempt false r (.answer { status := 200 })).result
    ComesBack r client ∧ ¬Honours r client (handOn r client) := by
  intro r client
  have hAddress : Url.read r.url = .error (.port "port") := read_portUrl
  have hUnreadable : Unreadable r client (.port "port") :=
    unreadable_attempt hAddress false (.answer { status := 200 })
  exact ⟨.unreadable client _ hUnreadable, hUnreadable.not_honours⟩

/-- Sources that set a key and this address. -/
def portSources : Settings.Sources where
  keywords := [("refresh_token", .string "r"), ("client_id", .string "id"), ("client_secret", .string "s"),
    ("token_url", .string portUrl)]

/-- The settings read from them. -/
def portSettings : Settings := { keySettings with tokenUrl := portUrl }

theorem read_portSources : Settings.read portSources = .valid portSettings := Settings.read_of_keywords _

/-- A place with these sources, where the server would answer. -/
def portPlace : Place where
  now := .epoch
  sources := portSources
  send r := exchange false r (.answer { status := 200 })

/-- There the call of a cache fails with the client's error, and so does the program. -/
theorem bad_port_ends_program :
    let error := (Refusal.address (.port "port")).error
    let cfg : Config := { source := .refreshable ⟨"r", "id", "s"⟩, url := portUrl, margin := .minute }
    let s := ((State.start .epoch {} [.raised error]).play cfg [.act (.call .token), .turn]).play cfg
      [.turn, .turn, .turn, .turn]
    s.result? 0 = some (.failed (.foreign error)) ∧
      (transcript portPlace (token portPlace portSettings false)).ending
        = .raised (.foreign "InvalidURL" (UrlError.port "port").message) := by
  intro error cfg s
  have hKey : RefreshKey.IsScalar ⟨"r", "id", "s"⟩ := ⟨by decide, by decide, by decide⟩
  obtain ⟨request, hRequest⟩ := refreshRequest_of_isScalar portUrl hKey
  have hAddress : Url.read request.url = .error (.port "port") := by
    rw [url_of_refreshRequest hRequest]
    exact read_portUrl
  obtain ⟨hContract, hCache, hProgram⟩ := contract_kept_unless_unreadable request
  obtain ⟨hUnreadable, -⟩ := hContract.unsent _ false (.answer { status := 200 }) hAddress
  have hReplies : ∀ reply ∈ [Reply.raised error], Replies request reply := by
    intro reply hMem
    rw [List.mem_singleton.mp hMem]
    exact ⟨_, .unreadable _ _ hUnreadable, hUnreadable.handOn_eq.symm⟩
  have hAsks : portPlace.Asks portSettings ⟨"r", "id", "s"⟩ request :=
    ⟨⟨read_portSources, rfl⟩, by decide, hRequest⟩
  have hReply : (portPlace.send request).reply
      = handOn request (attempt false request (.answer { status := 200 })).result := rfl
  refine ⟨?_, (hProgram portPlace portSettings _ _ false hAsks hReply).raised _ hUnreadable⟩
  -- the call that waits has ended with the outcome of its round trip
  have hReported := hCache cfg ⟨"r", "id", "s"⟩ .epoch {} [.raised error]
    [.act (.call .token), .turn] [.turn, .turn, .turn, .turn] rfl hRequest hReplies (by simp [Move.Supplies])
  have hTrip : s.trips[0]? = some (.finished (.failed (.foreign error))) := rfl
  have hSelf : s.calls[0]? = some ⟨.token, .finished (.failed (.foreign error)), false⟩ := rfl
  obtain ⟨k', hCall, -, -, hEnd⟩ := hReported.calls 0 ⟨.token, .waiting 0, false⟩ 0 rfl rfl
  have hCancel : k'.cancelRequested = false := by
    rw [Option.some.inj (hCall.symm.trans hSelf)]
  rcases hEnd rfl hCancel with hSent | ⟨o, hTrip', hPhase⟩
  · cases hTrip.symm.trans hSent
  · cases hTrip.symm.trans hTrip'
    rw [State.result?, State.phase?, hCall, Option.map_some, hPhase]
    rfl

end Command

end Bearer
