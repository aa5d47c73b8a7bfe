import Bearer.Proofs.Cache.Classification
import Bearer.Proofs.Command.Agreement

/-! `token` builds a backend that holds no token and asks it for one. A fixed token is there at once; a key is exchanged
in one round trip, unless it can not be written at all. What the program writes on the way are records of the log. -/

namespace Bearer

open Cache

variable {Given : Type}

theorem CredentialOptions.resolve_eq_refreshable {o : CredentialOptions} {key : RefreshKey}
    {held : HeldToken} (hResolve : o.resolve = .ok (.refreshable key held)) : held = {} := by
  obtain ⟨access, refresh, id, secret⟩ := o
  unfold resolve at hResolve
  split at hResolve
  · cases hResolve
  · cases hResolve
  · cases hResolve
  · split at hResolve
    · cases hResolve
    · cases hResolve
    · cases hResolve
      rfl

namespace Cache.State

/-- The first call on a cache that has no token begins a round trip. -/
theorem first_call (cfg : Config) {key : RefreshKey} (hSource : cfg.source = .refreshable key)
    (clock : Instant) (replies : List Reply) :
    ({ clock, held := {}, replies } : State).step cfg [.call .token]
      = turns cfg 7 (({
          clock, held := {}, replies
          lock := { holder := some 0 }
          pending := some 0
          calls := [⟨.token, .waiting 0, false⟩]
          trips := [.starting]
          trace := [.acquired 0] } : State).startTrip cfg key 0) := by
  obtain ⟨source, url, margin, gated, nesting⟩ := cfg
  subst hSource
  rfl

/-- A request that can be written is sent, and answered at once unless answers are held back. -/
theorem startTrip_of_request {cfg : Config} {key : RefreshKey} {t : TripId} (hGated : cfg.gated.waits t = false)
    {request : Request} (hRequest : refreshRequest cfg.url key = .ok request) (s : State) :
    s.startTrip cfg key t = (s.observe [.note (.started key.clientId), .request request]).answerTrip
      cfg key t := by
  simp only [startTrip, hRequest, hGated, observe, List.append_assoc]
  rfl

theorem startTrip_of_fault {cfg : Config} {key : RefreshKey} {fault : EncodeFault}
    (hFault : refreshRequest cfg.url key = .error fault) (t : TripId) (s : State) :
    s.startTrip cfg key t =
      (s.observe [.note (.started key.clientId)]).finishTrip t (.failed (.notEncodable fault)) := by
  simp only [startTrip, hFault]

end Cache.State

namespace Backend

variable {b : Backend Given} {key : RefreshKey}

theorem serve_fixed {token : Text} (hCredential : b.credential = .fixed token)
    (now : Instant) (replies : List Reply) (nesting : Nat) :
    ∃ run, b.serve now replies .token nesting = (run, some (.token token)) ∧ run.requests = [] := by
  obtain ⟨root, credential, url, margin, transport⟩ := b
  subst hCredential
  exact ⟨_, rfl, rfl⟩

/-- A key that can not be written makes no request. -/
theorem serve_of_fault (hCredential : b.credential = .refreshable key {}) {fault : EncodeFault}
    (hFault : refreshRequest b.tokenUrl key = .error fault) (now : Instant) (replies : List Reply) (nesting : Nat) :
    ∃ run, b.serve now replies .token nesting = (run, some (.failed (.notEncodable fault))) ∧ run.requests = [] := by
  obtain ⟨root, credential, url, margin, transport⟩ := b
  subst hCredential
  simp only [serve, State.callNow, held]
  rw [State.first_call _ rfl, State.startTrip_of_fault hFault]
  exact ⟨_, rfl, rfl⟩

/-- A backend that holds no token makes one request and ends as its answer settles. -/
theorem serve_of_request (hCredential : b.credential = .refreshable key {}) {request : Request}
    (hRequest : refreshRequest b.tokenUrl key = .ok request) (now : Instant) (reply : Reply) (nesting : Nat) :
    let settled := settlement nesting b.refreshMargin key now {} reply
    ∃ run, b.serve now [reply] .token nesting = (run, some (State.resultOf 0 .token settled.outcome)) ∧
      run.held = settled.held ∧ run.requests = [request] := by
  obtain ⟨root, credential, url, margin, transport⟩ := b
  subst hCredential
  simp only [serve, State.callNow, held]
  rw [State.first_call _ rfl, State.startTrip_of_request rfl hRequest, State.answerTrip]
  dsimp only [State.observe, State.takeReply, cache]
  generalize settlement nesting margin key now {} reply = settled
  refine ⟨_, rfl, rfl, ?_⟩
  show List.filterMap _ (_ ++ [_] ++ [_]) = _
  simp [State.setTrip, List.filterMap_map]

end Backend

namespace Command

variable {place : Place} {sink : Log.Sink} {s : Settings}

/-- A record of the log in the form that settings ask for. -/
def Piece.IsRecord (production : Bool) (p : Piece) : Prop := ∃ r, p = .logged production r

theorem exists_records {production : Bool} {pieces : List Piece}
    (hRecords : ∀ p ∈ pieces, p.IsRecord production) :
    ∃ records : List Log.Record, pieces = records.map (.logged production) := by
  induction pieces with
  | nil => exact ⟨[], rfl⟩
  | cons p pieces ih =>
      obtain ⟨r, rfl⟩ := hRecords p List.mem_cons_self
      obtain ⟨records, rfl⟩ := ih fun p hp => hRecords p (List.mem_cons_of_mem _ hp)
      exact ⟨r :: records, rfl⟩

theorem isRecord_of_write {level : Log.Level} {r : Log.Record} {p : Piece}
    (hPiece : p ∈ write sink level r) : p.IsRecord sink.production := by
  unfold write at hPiece
  split at hPiece
  · exact ⟨r, List.mem_singleton.mp hPiece⟩
  · cases hPiece

theorem isRecord_of_writeLines {lines : List Client.Line} {p : Piece}
    (hPiece : p ∈ writeLines place sink lines) : p.IsRecord sink.production := by
  obtain ⟨line, -, hWrite⟩ := List.mem_flatMap.mp hPiece
  exact isRecord_of_write hWrite

theorem isRecord_of_writeEvent {e : Event} {p : Piece}
    (hPiece : p ∈ writeEvent place sink e) : p.IsRecord sink.production := by
  cases e with
  | note n => exact isRecord_of_write hPiece
  | request r => exact isRecord_of_writeLines hPiece
  | acquired c => cases hPiece
  | arrived t o => cases hPiece
  | finished c r => cases hPiece

/-- The program never ends as a success when something stops it. -/
theorem Failure.last_ne_success (failure : Failure) (place : Place) : (failure.last place).2 ≠ .exit 0 := by
  cases failure with
  | invalid issues => simp [last]
  | failed r => cases hKind : r.kind? <;> simp [last, hKind]
  | interrupted => simp [last]

/-- A part of the program that ends with a value or a failure. -/
def outcome {α : Type} (result : Except Failure α) (d : Deeds) : EStateM.Result Failure Deeds α :=
  match result with
  | .ok a => .ok a d
  | .error failure => .error failure d

/-- The token that an answer of the token endpoint leads to, and when it expires. -/
def drawn (settled : Settlement) : Except Failure (Text × Option Instant) :=
  (tokenOf (some (State.resultOf 0 .token settled.outcome))).map fun token => (token, settled.held.expiresAt)

/-- What a backend that holds no token obtains, and the exchanges that it takes. -/
inductive Obtains (place : Place) (url : Text) (margin : Duration) :
    Credential → List Client.Exchange → Except Failure (Text × Option Instant) → Prop where
  | fixed (token : Text) : Obtains place url margin (.fixed token) [] (.ok (token, none))
  | unwritten (key : RefreshKey) (fault : EncodeFault) (hFault : refreshRequest url key = .error fault) :
      Obtains place url margin (.refreshable key {}) [] (.error (.failed (unprintable fault)))
  | answered (key : RefreshKey) (request : Request) (hRequest : refreshRequest url key = .ok request) :
      Obtains place url margin (.refreshable key {}) [place.send request]
        (drawn (settlement place.nesting margin key place.now {} (place.send request).reply))

/-- A backend that is asked lets the program write records only. -/
theorem ask_of_serve (sink : Log.Sink) {b : Backend Unit} {replies : List Reply}
    (hReplies : (refreshOf b).toList.map (fun r => (place.send r).reply) = replies)
    {run : State} {result : Option Result} (hServe : b.serve place.now replies .token place.nesting = (run, result))
    (d : Deeds) :
    ∃ records : List Log.Record, (ask place sink b).run d =
      outcome ((tokenOf result).map fun token => (token, (b.after run).held.expiresAt)) { d with
        pieces := d.pieces ++ records.map (.logged sink.production)
        exchanges := d.exchanges ++ run.requests.map place.send } := by
  obtain ⟨records, hRecords⟩ : ∃ records : List Log.Record,
      run.trace.flatMap (writeEvent place sink) = records.map (.logged sink.production) := by
    refine exists_records fun p hPiece => ?_
    obtain ⟨e, -, hEvent⟩ := List.mem_flatMap.mp hPiece
    exact isRecord_of_writeEvent hEvent
  refine ⟨records, ?_⟩
  rw [ask, hReplies, hServe, ← hRecords]
  dsimp only
  cases tokenOf result <;> rfl

theorem ask_obtains {b : Backend Unit} {credential : Credential} (hCredential : b.credential = credential)
    (hFresh : ∀ key held, credential = .refreshable key held → held = {}) (place : Place) (sink : Log.Sink)
    (d : Deeds) :
    ∃ (exchanges : List Client.Exchange) (result : Except Failure (Text × Option Instant))
        (records : List Log.Record),
      Obtains place b.tokenUrl b.refreshMargin credential exchanges result ∧
        (ask place sink b).run d = outcome result { d with
          pieces := d.pieces ++ records.map (.logged sink.production), exchanges := d.exchanges ++ exchanges } := by
  cases credential with
  | fixed token =>
      obtain ⟨run, hServe, hRequests⟩ := Backend.serve_fixed hCredential place.now [] place.nesting
      have hReplies : (refreshOf b).toList.map (fun r => (place.send r).reply) = [] := by
        rw [refreshOf, hCredential]
        rfl
      obtain ⟨records, hAsk⟩ := ask_of_serve sink hReplies hServe d
      refine ⟨[], _, records, .fixed token, ?_⟩
      rw [hAsk, hRequests, Backend.after, Backend.hold, hCredential, Backend.held, hCredential]
      rfl
  | refreshable key held =>
      obtain rfl := hFresh key held rfl
      cases hRequest : refreshRequest b.tokenUrl key with
      | error fault =>
          obtain ⟨run, hServe, hRequests⟩ := Backend.serve_of_fault hCredential hRequest place.now [] place.nesting
          have hReplies : (refreshOf b).toList.map (fun r => (place.send r).reply) = [] := by
            simp only [refreshOf, hCredential, hRequest]
            rfl
          obtain ⟨records, hAsk⟩ := ask_of_serve sink hReplies hServe d
          refine ⟨[], _, records, .unwritten key fault hRequest, ?_⟩
          rw [hAsk, hRequests]
          rfl
      | ok request =>
          obtain ⟨run, hServe, hHeld, hRequests⟩ := Backend.serve_of_request hCredential hRequest place.now
            (place.send request).reply place.nesting
          have hReplies : (refreshOf b).toList.map (fun r => (place.send r).reply)
              = [(place.send request).reply] := by
            simp only [refreshOf, hCredential, hRequest]
            rfl
          obtain ⟨records, hAsk⟩ := ask_of_serve sink hReplies hServe d
          refine ⟨_, _, records, .answered key request hRequest, ?_⟩
          rw [hAsk, hRequests, Backend.after, Backend.hold, hCredential, Backend.held, hHeld]
          rfl

/-- A line as standard output takes it. -/
def shown (place : Place) (line : Text) : Except Failure Text :=
  match place.strict, Utf8.encode line with
  | true, .error fault => .error (.failed (unprintable fault))
  | _, _ => .ok line

theorem shown_of_prints {line : Text} (hPrints : place.Prints line) : shown place line = .ok line := by
  unfold shown
  split
  · next fault hStrict hFault => exact absurd hPrints (not_prints hStrict hFault)
  · rfl

theorem shown_of_refused {line : Text} (hStrict : place.strict = true) {fault : EncodeFault}
    (hFault : Utf8.encode line = .error fault) : shown place line = .error (.failed (unprintable fault)) := by
  rw [shown, hStrict, hFault]

theorem shown_eq_ok {line shownLine : Text} :
    shown place line = .ok shownLine ↔ shownLine = line ∧ place.Prints line := by
  rcases prints_or_refuses place line with hPrints | ⟨hStrict, fault, hFault⟩
  · rw [shown_of_prints hPrints, Except.ok.injEq, eq_comm]
    exact (and_iff_left hPrints).symm
  · rw [shown_of_refused hStrict hFault]
    exact iff_of_false (by simp) fun h => not_prints hStrict hFault h.2

theorem run_say (place : Place) (line : Text) (d : Deeds) : (say place line).run d = match shown place line with
    | .ok line => .ok () { d with pieces := d.pieces ++ [.out (line ++ ("\n" : Text))] }
    | .error failure => .error failure d := by
  rcases prints_or_refuses place line with hPrints | ⟨hStrict, fault, hFault⟩
  · rw [say_of_prints hPrints, shown_of_prints hPrints]
  · rw [say_of_refused hStrict hFault, shown_of_refused hStrict hFault]

/-- The line that tells of what was obtained. -/
def lineOf (place : Place) (asJson : Bool) (result : Except Failure (Text × Option Instant)) : Except Failure Text :=
  result.bind fun (token, expiresAt) => shown place (printed asJson token expiresAt)

/-- The run of `token` with a backend: records of the log, the line with the token, records of the log again, for the
client is closed then, and what is left to say. -/
def served (place : Place) (s : Settings) (records closing : List Log.Record) (exchanges : List Client.Exchange)
    (line : Except Failure Text) : Transcript :=
  let (pieces, last, ending) : List Piece × List Piece × Ending := match line with
    | .ok line => ([.out (line ++ ("\n" : Text))], [], .exit 0)
    | .error failure => ([], failure.last place)
  { pieces := records.map (.logged s.isProduction) ++ pieces ++ closing.map (.logged s.isProduction) ++ last
    ending
    exchanges
    clients := [s.httpTimeout]
    closed := [.client s.httpTimeout true] }

/-- A backend is closed behind the line that tells what was obtained of it, or what keeps it from being told. -/
theorem run_deliver (sink : Log.Sink) {asJson : Bool} {b : Backend Unit} {d d' : Deeds}
    {result : Except Failure (Text × Option Instant)} (hAsk : (ask place sink b).run d = outcome result d') :
    (deliver place sink asJson b).run d = match lineOf place asJson result with
      | .ok line => .ok () { d' with
          pieces := d'.pieces ++ [.out (line ++ ("\n" : Text))] ++ writeLines place sink place.closing
          closed := d'.closed ++ [b.close.transport] }
      | .error failure => .error failure { d' with
          pieces := d'.pieces ++ writeLines place sink place.closing
          closed := d'.closed ++ [b.close.transport] } := by
  rw [deliver, lineOf]
  cases result with
  | error failure =>
      have hBlock := run_bind_of_error hAsk fun x => say place (printed asJson x.1 x.2)
      exact run_finally.2 failure hBlock (run_close place sink b _)
  | ok pair =>
      obtain ⟨token, expiresAt⟩ := pair
      have hBlock := run_bind_of_ok hAsk fun x => say place (printed asJson x.1 x.2)
      rw [run_say] at hBlock
      dsimp only [Except.bind] at hBlock ⊢
      cases hShown : shown place (printed asJson token expiresAt) with
      | error failure =>
          rw [hShown] at hBlock
          exact run_finally.2 failure hBlock (run_close place sink b _)
      | ok line =>
          rw [hShown] at hBlock
          exact run_finally.1 () hBlock (run_close place sink b _)

theorem asked_eq_served {b : Backend Unit} {credential : Credential} (hCredential : b.credential = credential)
    (hFresh : ∀ key held, credential = .refreshable key held → held = {})
    (hTransport : b.transport = .client s.httpTimeout false) (place : Place) (asJson : Bool) :
    ∃ (exchanges : List Client.Exchange) (result : Except Failure (Text × Option Instant))
        (records closing : List Log.Record),
      Obtains place b.tokenUrl b.refreshMargin credential exchanges result ∧
        writeLines place (sinkOf s) place.closing = closing.map (.logged s.isProduction) ∧
        asked place s asJson b = served place s records closing exchanges (lineOf place asJson result) := by
  obtain ⟨before, hBefore⟩ : ∃ before : List Log.Record,
      opened place (sinkOf s) b ++ write (sinkOf s) .debug (b.built place.now)
        = before.map (.logged s.isProduction) := by
    refine exists_records fun p hPiece => ?_
    rcases List.mem_append.mp hPiece with hOpened | hWritten
    · rw [opened, hTransport] at hOpened
      exact isRecord_of_writeLines hOpened
    · exact isRecord_of_write hWritten
  obtain ⟨closing, hClosing⟩ : ∃ closing : List Log.Record,
      writeLines place (sinkOf s) place.closing = closing.map (.logged s.isProduction) :=
    exists_records fun p hPiece => isRecord_of_writeLines hPiece
  have hClosed : b.close.transport = .client s.httpTimeout true := by rw [Backend.close, hTransport]
  have hCreated : b.transport.created = [s.httpTimeout] := by rw [hTransport, Transport.created]
  obtain ⟨exchanges, result, records, hObtains, hAsk⟩ := ask_obtains hCredential hFresh place (sinkOf s)
    { pieces := before.map (.logged s.isProduction), clients := [s.httpTimeout] }
  refine ⟨exchanges, result, before ++ records, closing, hObtains, hClosing, ?_⟩
  rw [asked, hBefore, hCreated, run_deliver (sinkOf s) hAsk, hClosing, hClosed]
  cases lineOf place asJson result <;>
    simp only [ended, served, sinkOf, List.map_append, List.nil_append, List.append_nil, List.append_assoc]

/-- What `token` comes to for settings that were read. -/
inductive Course (place : Place) (s : Settings) (asJson : Bool) : Transcript → Prop where
  /-- The margin is no duration. -/
  | overrun (hMargin : Duration.mostSeconds < s.refreshMargin) :
      Course place s asJson { ending := .raised .outOfRange }
  | unresolved (e : CredentialError) (hMargin : s.refreshMargin ≤ Duration.mostSeconds)
      (hResolve : (CredentialOptions.ofEntries s.options).resolve = .error e) :
      Course place s asJson { pieces := [complaint e.message], ending := .exit 1 }
  /-- A backend is built and asked for a token. -/
  | served (credential : Credential) (margin : Duration) (exchanges : List Client.Exchange)
      (result : Except Failure (Text × Option Instant)) (records closing : List Log.Record)
      (hMargin : s.refreshMargin ≤ Duration.mostSeconds)
      (hResolve : (CredentialOptions.ofEntries s.options).resolve = .ok credential)
      (hObtains : Obtains place s.tokenUrl margin credential exchanges result)
      (hClosing : writeLines place (sinkOf s) place.closing = closing.map (.logged s.isProduction)) :
      Course place s asJson (served place s records closing exchanges (lineOf place asJson result))

/-- The settings that were read make a backend if their margin is a duration and their options make
a credential. -/
theorem built_of_resolves (Given : Type) {margin : Duration}
    (hMargin : Duration.ofSeconds? s.refreshMargin = some margin) {credential : Credential}
    (hResolve : (CredentialOptions.ofEntries s.options).resolve = .ok credential) :
    ∃ b : Backend Given, built s = .ok b ∧ b.credential = credential ∧ b.tokenUrl = s.tokenUrl ∧
      b.transport = .client s.httpTimeout false := by
  simp only [built, Builder.ofSettings?, hMargin, Option.map_some, Builder.build_eq, Builder.ofEntries, hResolve]
  exact ⟨_, rfl, rfl, rfl, rfl⟩

theorem stopped_of_unresolved (Given : Type) {margin : Duration}
    (hMargin : Duration.ofSeconds? s.refreshMargin = some margin) {e : CredentialError}
    (hResolve : (CredentialOptions.ofEntries s.options).resolve = .error e) :
    (built s : Except Report (Backend Given)) = .error e.report ∧
      stopped e.report = { pieces := [complaint e.message], ending := .exit 1 } := by
  constructor
  · simp only [built, Builder.ofSettings?, hMargin, Option.map_some, Builder.build_eq, Builder.ofEntries, hResolve]
    rfl
  · cases e <;> rfl

theorem course_of_read (hRead : Settings.read place.sources = .valid s) (asJson : Bool) :
    Course place s asJson (transcript place (token place s asJson)) := by
  have hNonneg := Settings.refreshMargin_nonneg hRead
  rw [transcript_token]
  cases hMargin : Duration.ofSeconds? s.refreshMargin with
  | none =>
      have hWide := (Duration.ofSeconds?_eq_none hNonneg).mp hMargin
      rw [built_of_wide_margin hNonneg hWide]
      exact .overrun hWide
  | some margin =>
      have hMost : s.refreshMargin ≤ Duration.mostSeconds := by
        refine Int.not_lt.mp fun hWide => ?_
        rw [(Duration.ofSeconds?_eq_none hNonneg).mpr hWide] at hMargin
        contradiction
      cases hResolve : (CredentialOptions.ofEntries s.options).resolve with
      | error e =>
          obtain ⟨hBuilt, hStopped⟩ := stopped_of_unresolved Unit hMargin hResolve
          rw [hBuilt]
          dsimp only
          rw [hStopped]
          exact .unresolved e hMost hResolve
      | ok credential =>
          obtain ⟨b, hBuilt, hCredential, hUrl, hTransport⟩ := built_of_resolves Unit hMargin hResolve
          have hFresh : ∀ key held, credential = .refreshable key held → held = {} := by
            rintro key held rfl
            exact CredentialOptions.resolve_eq_refreshable hResolve
          obtain ⟨exchanges, result, records, closing, hObtains, hClosing, hAsked⟩ :=
            asked_eq_served hCredential hFresh hTransport place asJson
          rw [hBuilt]
          dsimp only
          rw [hAsked]
          exact .served credential b.refreshMargin exchanges result records closing hMost hResolve (hUrl ▸ hObtains)
            hClosing

/-- Sources that set a key and nothing else. -/
def keySources : Settings.Sources where
  keywords := [("refresh_token", .string "r"), ("client_id", .string "id"), ("client_secret", .string "s")]

/-- The settings read from them. -/
def keySettings : Settings :=
  { Settings.byDefault with refreshToken := some "r", clientId := some "id", clientSecret := some "s" }

theorem read_keySources : Settings.read keySources = .valid keySettings := Settings.read_of_keywords _

theorem resolve_keySettings : (CredentialOptions.ofEntries keySettings.options).resolve
    = .ok (.refreshable ⟨"r", "id", "s"⟩ {}) := rfl

theorem request_keySettings : ∃ request,
    refreshRequest keySettings.tokenUrl ⟨"r", "id", "s"⟩ = .ok request :=
  refreshRequest_of_isScalar _ ⟨by decide, by decide, by decide⟩

end Command

end Bearer
