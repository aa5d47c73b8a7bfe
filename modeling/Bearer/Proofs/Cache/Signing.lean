import Bearer.Proofs.Cache.Mappings
import Bearer.Proofs.Cache.Necessity
import Bearer.Proofs.Cache.Redaction
import Bearer.Proofs.Cache.Wakeup

/-!
To sign a request is to obtain a token and then to set one field. A run in which a call only obtains the token goes
the way of the run in which it signs: signatures are a guise of tokens.
-/

namespace Bearer.Cache

/-- The fields of a request before and after its authorization is set. An old value is replaced in its place, else
the field comes last; the other fields keep their values and their order. -/
inductive Authorized (token : Text) : Headers → Headers → Prop where
  | replaced (before after : Headers) (old : Text) (hBefore : ∀ field ∈ before, field.1 ≠ "Authorization") :
      Authorized token (before ++ (("Authorization" : Text), old) :: after)
        (before ++ (("Authorization" : Text), ("Bearer " : Text) ++ token) :: after)
  | added (headers : Headers) (hOthers : ∀ field ∈ headers, field.1 ≠ "Authorization") :
      Authorized token headers (headers ++ [(("Authorization" : Text), ("Bearer " : Text) ++ token)])

theorem authorized_authorize (token : Text) (headers : Headers) :
    Authorized token headers (authorize token headers) := by
  unfold authorize
  induction headers with
  | nil => exact .added [] (fun _ hMem => nomatch hMem)
  | cons field rest ih =>
      obtain ⟨name, value⟩ := field
      rw [Entries.put]
      split
      · next hName =>
          subst hName
          exact .replaced [] rest value (fun _ hMem => nomatch hMem)
      · next hName =>
          generalize Entries.put _ _ rest = fields at ih
          cases ih with
          | replaced before after old hBefore =>
              exact .replaced ((name, value) :: before) after old (List.forall_mem_cons.mpr ⟨hName, hBefore⟩)
          | added _ hOthers => exact .added ((name, value) :: rest) (List.forall_mem_cons.mpr ⟨hName, hOthers⟩)

/-- The token that a request is signed with. -/
def bearer (fields : Headers) : Text :=
  ((fields.get? "Authorization").getD []).drop ("Bearer " : Text).length

theorem bearer_authorize (token : Text) (headers : Headers) : bearer (authorize token headers) = token := by
  rw [bearer, authorize, Entries.get?_put, Option.getD_some, List.drop_left]

def Call.unsigned : Call → Call
  | .sign _ => .token
  | .token => .token
  | .refresh => .refresh

def Result.unsigned : Result → Result
  | .signed mapping => .token (bearer mapping.fields)
  | .token t => .token t
  | .failed e => .failed e
  | .cancelled => .cancelled

theorem Call.unsigned_result (c : CallId) (call : Call) (token : Text) :
    (call.result c token).unsigned = .token token := by
  cases call with
  | token => rfl
  | refresh => rfl
  | sign headers => exact congrArg Result.token (bearer_authorize token headers)

theorem Call.result_unsigned (c : CallId) (call : Call) (token : Text) :
    call.unsigned.result c token = .token token := by
  cases call <;> rfl

/-- The guise in which calls obtain the token and do not sign, and bring no mapping. -/
def unsigned : Guise where
  call := Call.unsigned
  result := Result.unsigned
  mapping _ := none
  token := id
  key := id
  request := id
  replies := id
  refresh_iff call := by cases call <;> simp [Call.unsigned]
  result_token c call token := (call.unsigned_result c token).trans (call.result_unsigned c token).symm
  mapping_owner _ _ hShown := nomatch hShown
  mapping_sign _ _ := rfl
  mappings_call c call := by cases call <;> rfl
  result_failed _ := rfl
  result_cancelled := rfl
  token_nil := rfl

def Action.unsigned : Action → Action
  | .call asked => .call asked.unsigned
  | a => a

def Move.unsigned : Move → Move
  | .act a => .act a.unsigned
  | .turn => .turn

theorem unsigned_outcome (o : Outcome) : unsigned.outcome o = o := by cases o <;> rfl

theorem unsigned_trips (trips : List Trip) : trips.map unsigned.trip = trips := by
  refine List.map_id'' (fun trip => ?_) trips
  cases trip with
  | finished o => exact congrArg Trip.finished (unsigned_outcome o)
  | _ => rfl

theorem unsigned_held (held : HeldToken) : unsigned.held held = held := by
  obtain ⟨token, expiresAt⟩ := held
  cases token <;> rfl

theorem unsigned_config (cfg : Config) : unsigned.config cfg = cfg := by
  obtain ⟨source, url, margin, gated, nesting⟩ := cfg
  cases source <;> rfl

theorem unsigned_action (a : Action) : unsigned.action a = a.unsigned := by cases a <;> rfl

theorem unsigned_notes (notes : List Note) : (notes.map Event.note).map unsigned.event = notes.map .note := by
  rw [List.map_map]
  rfl

namespace State

variable {cfg : Config} {s s' : State} {c : CallId} {t : TripId} {k : Caller} {moves moves' : List Move}

theorem unsigned_state (s : State) : unsigned.state s =
    { s with calls := s.calls.map unsigned.caller, trace := s.trace.map unsigned.event, mappings := [] } := by
  have hNone : s.mappings.filterMap unsigned.mapping = [] := List.filterMap_eq_nil_iff.mpr fun _ _ => rfl
  rw [Guise.state, unsigned_held, unsigned_trips, hNone]
  rfl

theorem unsigned_answerTrip (cfg : Config) (key : RefreshKey) (t : TripId) (s : State) :
    unsigned.state (s.answerTrip cfg key t) = (unsigned.state s).answerTrip cfg key t := by
  rw [answerTrip_eq, answerTrip_eq, Guise.state_finishTrip, Guise.state_observe, unsigned_outcome, unsigned_notes]
  simp only [unsigned_state]

theorem unsigned_startTrip (cfg : Config) (key : RefreshKey) (t : TripId) (s : State) :
    unsigned.state (s.startTrip cfg key t) = (unsigned.state s).startTrip cfg key t := by
  unfold startTrip
  cases refreshRequest cfg.url key with
  | error fault =>
      rw [Guise.state_finishTrip, Guise.state_observe, unsigned_outcome]
      rfl
  | ok request =>
      dsimp only
      split
      · rw [Guise.state_setTrip, Guise.state_observe, Guise.state_observe]
        rfl
      · rw [unsigned_answerTrip, Guise.state_observe, Guise.state_observe]
        rfl

theorem unsigned_stepTrip (cfg : Config) (t : TripId) (s : State) :
    unsigned.state (s.stepTrip cfg t) = (unsigned.state s).stepTrip cfg t := by
  have hTrips : (unsigned.state s).trips = s.trips := unsigned_trips s.trips
  unfold stepTrip
  rw [hTrips]
  split
  · exact unsigned_startTrip cfg _ t s
  · exact unsigned_answerTrip cfg _ t s
  · rfl

theorem unsigned_turn (cfg : Config) (s : State) : unsigned.state (s.turn cfg) = (unsigned.state s).turn cfg := by
  have hReady : (unsigned.state s).ready = s.ready := rfl
  unfold turn
  rw [hReady]
  cases s.ready with
  | nil => rfl
  | cons task rest =>
      cases task with
      | call c => exact (unsigned.state_stepCall cfg c _).trans (by rw [unsigned_config]; rfl)
      | trip t => exact unsigned_stepTrip cfg t _
      | retire t => exact unsigned.state_retire t _
      | deliver t c => exact unsigned.state_deliver c t _

theorem unsigned_move (cfg : Config) (m : Move) (s : State) :
    unsigned.state (s.move cfg m) = (unsigned.state s).move cfg m.unsigned := by
  cases m with
  | act a => exact (unsigned.state_act a s).trans (by rw [unsigned_action]; rfl)
  | turn => exact unsigned_turn cfg s

/-- The schedule without signatures leads to the state without signatures. -/
theorem unsigned_play (cfg : Config) (moves : List Move) (s : State) :
    unsigned.state (s.play cfg moves) = (unsigned.state s).play cfg (moves.map Move.unsigned) := by
  induction moves generalizing s with
  | nil => rfl
  | cons m moves ih => rw [play_cons, ih, unsigned_move, List.map_cons, play_cons]

theorem unsigned_play_congr (hSame : unsigned.state s = unsigned.state s')
    (hMoves : moves.map Move.unsigned = moves'.map Move.unsigned) :
    unsigned.state (s.play cfg moves) = unsigned.state (s'.play cfg moves') := by
  rw [unsigned_play, unsigned_play, hSame, hMoves]

/-- Two states that are the same without signatures settle in as many turns. -/
theorem unsigned_turns (cfg : Config) (hSame : unsigned.state s = unsigned.state s') (bound : Nat) :
    ∃ count, s.turns cfg bound = s.play cfg (List.replicate count .turn) ∧
      s'.turns cfg bound = s'.play cfg (List.replicate count .turn) := by
  induction bound generalizing s s' with
  | zero => exact ⟨0, rfl, rfl⟩
  | succ bound ih =>
      have hReady : s.ready = s'.ready := show (unsigned.state s).ready = (unsigned.state s').ready by rw [hSame]
      rw [turns, turns, hReady]
      split
      · exact ⟨0, rfl, rfl⟩
      · have hTurned : unsigned.state (s.turn cfg) = unsigned.state (s'.turn cfg) := by
          rw [unsigned_turn, unsigned_turn, hSame]
        obtain ⟨count, hLeft, hRight⟩ := ih hTurned
        exact ⟨count + 1, hLeft, hRight⟩

/-- Steps that are the same without signatures are schedules that are. -/
theorem step_eq_play_unsigned (cfg : Config) (hSame : unsigned.state s = unsigned.state s')
    {actions actions' : List Action} (hActions : actions.map Action.unsigned = actions'.map Action.unsigned) :
    ∃ moves moves', moves.map Move.unsigned = moves'.map Move.unsigned ∧
      s.step cfg actions = s.play cfg moves ∧ s'.step cfg actions' = s'.play cfg moves' := by
  have hMoves : (actions.map Move.act).map Move.unsigned = (actions'.map Move.act).map Move.unsigned := by
    have hLift := congrArg (List.map Move.act) hActions
    rw [List.map_map, List.map_map] at hLift ⊢
    exact hLift
  have hActed : unsigned.state (actions.foldl act s) = unsigned.state (actions'.foldl act s') := by
    rw [@acts_eq_play cfg, @acts_eq_play cfg]
    exact unsigned_play_congr hSame hMoves
  have hWeight : (actions'.foldl act s').weight = (actions.foldl act s).weight := by
    rw [← unsigned.weight_state, ← hActed, unsigned.weight_state]
  obtain ⟨count, hTurns, hTurns'⟩ := unsigned_turns cfg hActed (actions.foldl act s).weight
  refine ⟨actions.map .act ++ List.replicate count .turn, actions'.map .act ++ List.replicate count .turn,
    ?_, ?_, ?_⟩
  · rw [List.map_append, List.map_append, hMoves]
  · rw [step, settle, hTurns, play_append, acts_eq_play]
  · rw [step, settle, hWeight, hTurns', play_append, acts_eq_play]

theorem run_eq_play_unsigned (cfg : Config) (hSame : unsigned.state s = unsigned.state s')
    {steps steps' : List (List Action)}
    (hSteps : steps.map (·.map Action.unsigned) = steps'.map (·.map Action.unsigned)) :
    ∃ moves moves', moves.map Move.unsigned = moves'.map Move.unsigned ∧
      s.run cfg steps = s.play cfg moves ∧ s'.run cfg steps' = s'.play cfg moves' := by
  induction steps generalizing s s' steps' with
  | nil =>
      rw [List.map_nil, eq_comm, List.map_eq_nil_iff] at hSteps
      exact ⟨[], [], rfl, rfl, by rw [hSteps]; rfl⟩
  | cons actions steps ih =>
      cases steps' with
      | nil => contradiction
      | cons actions' steps' =>
          obtain ⟨hActions, hRest⟩ := List.cons.inj hSteps
          obtain ⟨moves, moves', hMoves, hStep, hStep'⟩ := step_eq_play_unsigned cfg hSame hActions
          have hStepped : unsigned.state (s.step cfg actions) = unsigned.state (s'.step cfg actions') := by
            rw [hStep, hStep']
            exact unsigned_play_congr hSame hMoves
          obtain ⟨later, later', hLater, hRun, hRun'⟩ := ih hStepped hRest
          refine ⟨moves ++ later, moves' ++ later', ?_, ?_, ?_⟩
          · rw [List.map_append, List.map_append, hMoves, hLater]
          · rw [play_append, ← hStep, ← hRun]
            rfl
          · rw [play_append, ← hStep', ← hRun']
            rfl

/-- The results that a call can have: one with a token, a failure, or none because it was cancelled. -/
inductive Yields (c : CallId) (call : Call) : Result → Prop where
  | obtained (token : Text) : Yields c call (call.result c token)
  | failed (e : CallError) : Yields c call (.failed e)
  | cancelled : Yields c call .cancelled

theorem yields_resultOf (c : CallId) (call : Call) (o : Outcome) : Yields c call (resultOf c call o) := by
  cases o with
  | token token => exact .obtained token
  | failed e => exact .failed e
  | cancelled => exact .cancelled

theorem Alone.yields {call : Call} {r : Result} (h : Alone cfg s c call r) : Yields c call r := by
  cases h with
  | given token _ => exact .obtained token
  | held token _ _ _ _ => exact .obtained token
  | unknown _ _ => exact .failed .outOfRange

/-- What a call asks for. -/
def call? (s : State) (c : CallId) : Option Call := (s.calls[c]?).map (·.call)

theorem yields_of_result {first : State} (hSound : Sound cfg first) (hUnserved : first.Unserved c) (moves : List Move)
    {call : Call} (hCall : (first.play cfg moves).call? c = some call) {r : Result}
    (hEnd : (first.play cfg moves).result? c = some r) : Yields c call r := by
  obtain ⟨k, hCaller, rfl⟩ := Option.map_eq_some_iff.mp hCall
  obtain ⟨k', hCaller', hPhase⟩ := phase?_eq_some.mp (result?_eq_some.mp hEnd)
  obtain rfl : k' = k := Option.some.inj (hCaller'.symm.trans hCaller)
  have hCourse := hCaller ▸ Course.play hSound hUnserved moves
  rcases hCourse.ended hPhase with rfl | hAlone | ⟨t, o, rfl, -⟩
  · exact .cancelled
  · exact hAlone.elim fun u m hEnds => hEnds.2.2.yields
  · exact yields_resultOf c k'.call o

/-- Results that are the same without signatures are two with one token, one failure, or both cancelled. -/
theorem Yields.cases_of_unsigned {call call' : Call} {r r' : Result} (h : Yields c call r) (h' : Yields c call' r')
    (hSame : r.unsigned = r'.unsigned) : (∃ token, r = call.result c token ∧ r' = call'.result c token) ∨
      (∃ e, r = .failed e ∧ r' = .failed e) ∨ r = .cancelled ∧ r' = .cancelled := by
  cases h with
  | obtained token =>
      rw [Call.unsigned_result] at hSame
      cases h' with
      | obtained token' =>
          rw [Call.unsigned_result] at hSame
          exact .inl ⟨token, rfl, by rw [Result.token.inj hSame]⟩
      | failed e => contradiction
      | cancelled => contradiction
  | failed e =>
      cases h' with
      | obtained token' => rw [Call.unsigned_result] at hSame; contradiction
      | failed e' => exact .inr (.inl ⟨e, rfl, hSame.symm⟩)
      | cancelled => contradiction
  | cancelled =>
      cases h' with
      | obtained token' => rw [Call.unsigned_result] at hSame; contradiction
      | failed e' => contradiction
      | cancelled => exact .inr (.inr ⟨rfl, rfl⟩)

/-- What becomes of a request that is to be signed, by what it becomes of the call that obtains its token: what the
mapping holds now, and the results of the two calls. -/
inductive Signs (c : CallId) (headers : Headers) : Option Headers → Option Result → Option Result → Prop where
  | pending : Signs c headers (some headers) none none
  | signed (token : Text) (fields : Headers) (hFields : Authorized token headers fields) :
      Signs c headers (some fields) (some (.signed ⟨c, fields⟩)) (some (.token token))
  | failed (e : CallError) : Signs c headers (some headers) (some (.failed e)) (some (.failed e))
  | cancelled : Signs c headers (some headers) (some .cancelled) (some .cancelled)

/-- Two states are the same but for what is signed: the log of every sink, the requests, the credential and the
results of the calls that ask for the same. -/
structure SameButSigned (s s' : State) : Prop where
  log : ∀ (sink : Log.Sink) (stamp : Nat → Instant), s.records sink stamp = s'.records sink stamp
  requests : s.requests = s'.requests
  held : s.held = s'.held
  results : ∀ c, s.call? c = s'.call? c → s.result? c = s'.result? c
  trace : s.trace.map unsigned.event = s'.trace.map unsigned.event

theorem result?_unsigned_congr (hSame : unsigned.state s = unsigned.state s') (c : CallId) :
    (s.result? c).map Result.unsigned = (s'.result? c).map Result.unsigned := by
  have hLeft := unsigned.result?_state c s
  rw [hSame, unsigned.result?_state c s'] at hLeft
  exact hLeft.symm

theorem sameButSigned_play {first : State} (hSound : Sound cfg first) (hUnserved : ∀ c, first.Unserved c)
    (hMoves : moves.map Move.unsigned = moves'.map Move.unsigned) :
    SameButSigned (first.play cfg moves) (first.play cfg moves') := by
  have hSame : unsigned.state (first.play cfg moves) = unsigned.state (first.play cfg moves') :=
    unsigned_play_congr rfl hMoves
  have hNotes : (first.play cfg moves).notes = (first.play cfg moves').notes := by
    rw [← unsigned.notes_state, hSame, unsigned.notes_state]
  refine ⟨fun sink stamp => by rw [records, records, hNotes], ?_, ?_, fun c hCall => ?_, ?_⟩
  · have hRequests := unsigned.requests_state (first.play cfg moves)
    rw [hSame, unsigned.requests_state] at hRequests
    simpa [unsigned] using hRequests.symm
  · rw [← unsigned_held (first.play cfg moves).held, ← unsigned_held (first.play cfg moves').held]
    exact congrArg State.held hSame
  · have hResults := result?_unsigned_congr hSame c
    cases hEnd : (first.play cfg moves).result? c with
    | none =>
        rw [hEnd] at hResults
        exact (Option.map_eq_none_iff.mp hResults.symm).symm
    | some r =>
        rw [hEnd] at hResults
        obtain ⟨r', hEnd', hUnsigned⟩ := Option.map_eq_some_iff.mp hResults.symm
        obtain ⟨k, hCaller, -⟩ := phase?_eq_some.mp (result?_eq_some.mp hEnd)
        have hAsked : (first.play cfg moves).call? c = some k.call := congrArg (Option.map Caller.call) hCaller
        have hEnds := yields_of_result hSound (hUnserved c) moves hAsked hEnd
        have hEnds' := yields_of_result hSound (hUnserved c) moves' (hCall ▸ hAsked) hEnd'
        rcases hEnds.cases_of_unsigned hEnds' hUnsigned.symm with ⟨token, rfl, rfl⟩ | ⟨e, rfl, rfl⟩ | ⟨rfl, rfl⟩
        all_goals exact hEnd'.symm
  · exact congrArg State.trace hSame

/-- A mapping holds what its call returns, and as long as nothing has been signed what came with the call. -/
theorem Kept.fields_eq (h : s.Kept) {headers : Headers} (hCall : s.call? c = some (.sign headers)) :
    (∀ m, s.result? c = some (.signed m) → s.fields? c = some m.fields) ∧
      ((∀ m, s.result? c ≠ some (.signed m)) → s.fields? c = some headers) := by
  obtain ⟨k, hCaller, hAsked⟩ := Option.map_eq_some_iff.mp hCall
  have hResult (m : Mapping) : s.result? c = some (.signed m) ↔ k.phase = .finished (.signed m) := by
    rw [result?_eq_some, phase?_eq_some, hCaller]
    simp
  have hFields : s.fields? c = k.fields? := by rw [h c, hCaller, Option.bind_some]
  refine ⟨fun m hSigned => ?_, fun hOpen => ?_⟩
  · rw [hFields, Caller.fields?, (hResult m).mp hSigned]
  · rw [hFields, Caller.fields?_eq fun m hPhase => hOpen m ((hResult m).mpr hPhase), hAsked, Call.fields?]

theorem signs_of_same {headers : Headers} {fields : Option Headers} {r r' : Option Result}
    (hSame : r.map Result.unsigned = r'.map Result.unsigned) (hEnds : ∀ x, r = some x → Yields c (.sign headers) x)
    (hEnds' : ∀ x, r' = some x → Yields c .token x) (hSigned : ∀ m, r = some (.signed m) → fields = some m.fields)
    (hOpen : (∀ m, r ≠ some (.signed m)) → fields = some headers) : Signs c headers fields r r' := by
  cases r with
  | none =>
      rw [Option.map_eq_none_iff.mp hSame.symm, hOpen fun m => nofun]
      exact .pending
  | some x =>
      obtain ⟨x', rfl, hUnsigned⟩ := Option.map_eq_some_iff.mp hSame.symm
      rcases (hEnds x rfl).cases_of_unsigned (hEnds' x' rfl) hUnsigned.symm with
        ⟨token, rfl, rfl⟩ | ⟨e, rfl, rfl⟩ | ⟨rfl, rfl⟩
      · rw [hSigned _ rfl]
        exact .signed token _ (authorized_authorize token headers)
      · rw [hOpen fun m => nofun]
        exact .failed e
      · rw [hOpen fun m => nofun]
        exact .cancelled

/-- To sign is to obtain a token and to set one field, or nothing. After every schedule from a fresh cache, a mapping
that was given to be signed holds what it held then, unless its call has signed it. The call then returns that very
mapping, with a token in the authorization and all else as it was.

Take two schedules that are the same but for calls that obtain a token in one of them and sign a request in the other,
or that sign different requests. The log, the requests, the credential and the results of all other calls are the same
after both. And wherever one signs a request for which the other obtains a token, that token is the one that is set, at
the same moment, and the one call fails or is cancelled where the other is. Steps that are the same but for signatures
amount to such schedules. -/
theorem sign_is_token_and_header (cfg : Config) (clock : Instant) (held : HeldToken) (replies : List Reply) :
    let first := start clock held replies
    (∀ moves c headers, (first.play cfg moves).call? c = some (.sign headers) →
      (∀ m, (first.play cfg moves).result? c = some (.signed m) →
        m.owner = c ∧ (first.play cfg moves).fields? c = some m.fields ∧
          ∃ token, Authorized token headers m.fields) ∧
      ((∀ m, (first.play cfg moves).result? c ≠ some (.signed m)) →
        (first.play cfg moves).fields? c = some headers)) ∧
      (∀ moves moves', moves.map Move.unsigned = moves'.map Move.unsigned →
        SameButSigned (first.play cfg moves) (first.play cfg moves') ∧
          ∀ c headers, (first.play cfg moves).call? c = some (.sign headers) →
            (first.play cfg moves').call? c = some .token →
            Signs c headers ((first.play cfg moves).fields? c) ((first.play cfg moves).result? c)
              ((first.play cfg moves').result? c)) ∧
      ∀ steps steps', steps.map (·.map Action.unsigned) = steps'.map (·.map Action.unsigned) →
        ∃ moves moves', moves.map Move.unsigned = moves'.map Move.unsigned ∧
          first.run cfg steps = first.play cfg moves ∧ first.run cfg steps' = first.play cfg moves' := by
  intro first
  have hSound : Sound cfg first := .start clock held replies
  have hUnserved (c : CallId) : first.Unserved c := .of_length (Nat.zero_le c)
  have hKept (moves : List Move) : (first.play cfg moves).Kept := kept_play cfg clock held replies moves
  refine ⟨fun moves c headers hSign => ⟨fun m hEnd => ?_, ((hKept moves).fields_eq hSign).2⟩,
    fun moves moves' hMoves => ⟨sameButSigned_play hSound hUnserved hMoves, fun c headers hSign hToken => ?_⟩,
    fun steps steps' hSteps => run_eq_play_unsigned cfg rfl hSteps⟩
  · refine ⟨?_, ((hKept moves).fields_eq hSign).1 m hEnd, ?_⟩
    all_goals cases yields_of_result hSound (hUnserved c) moves hSign hEnd with | obtained token => ?_
    · rfl
    · exact ⟨token, authorized_authorize token headers⟩
  · exact signs_of_same (result?_unsigned_congr (unsigned_play_congr rfl hMoves) c)
      (fun _ hEnd => yields_of_result hSound (hUnserved c) moves hSign hEnd)
      (fun _ hEnd => yields_of_result hSound (hUnserved c) moves' hToken hEnd)
      ((hKept moves).fields_eq hSign).1 ((hKept moves).fields_eq hSign).2

/-- While the first call waits for its token, the second one, which waits for the lock, is cancelled. -/
theorem signed_in_place :
    let cfg : Config :=
      { source := .refreshable ⟨"R", "id", "s"⟩, url := Grant.defaultUrl, margin := .minute, gated := true }
    let body : Bytes := (Utf8.encode "\x7b\"access_token\":\"T\",\"expires_in\":3600\x7d").toOption.getD []
    let first := start ⟨1704110400000000, by decide, by decide⟩ {} [.response { status := 200, body }]
    let headers : Headers := [("Accept", "*/*"), ("Authorization", "old"), ("Host", "h")]
    let signed : Headers := [("Accept", "*/*"), ("Authorization", "Bearer T"), ("Host", "h")]
    let others : Headers := [("Accept", "*/*")]
    let moves (call : Call) : List Move :=
      [.act (.call call), .act (.call (.sign others)), .turn, .turn, .turn, .act (.cancel 1), .turn,
        .act .release, .turn, .turn, .turn, .turn]
    let s := first.play cfg (moves (.sign headers))
    let s' := first.play cfg (moves .token)
    s.result? 0 = some (.signed ⟨0, signed⟩) ∧ s.fields? 0 = some signed ∧ s.result? 1 = some .cancelled ∧
      s.fields? 1 = some others ∧ SameButSigned s s' ∧
      Signs 0 headers (s.fields? 0) (s.result? 0) (s'.result? 0) := by
  intro cfg body first headers signed others moves s s'
  obtain ⟨hFrame, hPair, -⟩ := sign_is_token_and_header cfg ⟨1704110400000000, by decide, by decide⟩ {}
    [.response { status := 200, body }]
  obtain ⟨hSame, hSigns⟩ := hPair (moves (.sign headers)) (moves .token) rfl
  have hEnd : s.result? 0 = some (.signed ⟨0, signed⟩) := by
    dsimp only [s, first, cfg, moves, headers, signed, others, body]
    decide +kernel
  have hCancelled : s.result? 1 = some .cancelled := by
    dsimp only [s, first, cfg, moves, headers, others, body]
    decide +kernel
  have hAsked : s.call? 0 = some (.sign headers) := by
    dsimp only [s, first, cfg, moves, headers, others, body]
    decide +kernel
  have hOther : s.call? 1 = some (.sign others) := by
    dsimp only [s, first, cfg, moves, headers, others, body]
    decide +kernel
  refine ⟨hEnd, (((hFrame _ 0 headers hAsked).1 _ hEnd).2).1, hCancelled, ?_, hSame, hSigns 0 headers hAsked ?_⟩
  · exact (hFrame _ 1 others hOther).2 fun m hSigned => nomatch hCancelled.symm.trans hSigned
  · dsimp only [first, cfg, moves, headers, others, body]
    decide +kernel

end State

end Bearer.Cache
