import Bearer.Proofs.Cache.Guise
import Bearer.Proofs.Entries

/-! What is left of a state when every secret in it is blanked: tokens, signatures and the bodies of requests. The
replies to come are left out, because they hold tokens too. -/

namespace Bearer

/-- The key without what must stay secret. -/
def RefreshKey.redact (key : RefreshKey) : RefreshKey := ⟨[], key.clientId, []⟩

def HeldToken.redact (held : HeldToken) : HeldToken := { held with token := held.token.map fun _ => [] }

theorem RefreshKey.clientId_of_redact {key key' : RefreshKey} (h : key.redact = key'.redact) :
    key.clientId = key'.clientId := (RefreshKey.mk.inj h).2.1

theorem HeldToken.expiresAt_of_redact {held held' : HeldToken} (h : held.redact = held'.redact) :
    held.expiresAt = held'.expiresAt := (HeldToken.mk.inj h).2

/-- Secrets are sent in bodies only. -/
def Request.redact (r : Request) : Request := { r with body := [] }

namespace Cache

def Source.redact : Source → Source
  | .fixed _ => .fixed []
  | .refreshable key => .refreshable key.redact

def Config.redact (cfg : Config) : Config := { cfg with source := cfg.source.redact }

def Outcome.redact : Outcome → Outcome
  | .token _ => .token []
  | .failed e => .failed e
  | .cancelled => .cancelled

/-- A signature is blanked by signing with no token. -/
def Mapping.redact (m : Mapping) : Mapping := m.sign []

def Call.redact : Call → Call
  | .token => .token
  | .refresh => .refresh
  | .sign headers => .sign (authorize [] headers)

def Result.redact : Result → Result
  | .token _ => .token []
  | .signed mapping => .signed mapping.redact
  | .failed e => .failed e
  | .cancelled => .cancelled

def Phase.redact : Phase → Phase
  | .starting => .starting
  | .queued => .queued
  | .waiting t => .waiting t
  | .delivered o => .delivered o.redact
  | .finished r => .finished r.redact

def Caller.redact (k : Caller) : Caller := { k with call := k.call.redact, phase := k.phase.redact }

def Trip.redact : Trip → Trip
  | .starting => .starting
  | .sent => .sent
  | .released => .released
  | .finished o => .finished o.redact

def Event.redact : Event → Event
  | .note n => .note n
  | .request r => .request r.redact
  | .acquired c => .acquired c
  | .arrived t o => .arrived t o.redact
  | .finished c r => .finished c r.redact

/-- Signing again replaces the signature. -/
theorem authorize_authorize (first second : Text) (headers : Headers) :
    authorize second (authorize first headers) = authorize second headers :=
  Entries.put_put _ _ _ headers

theorem Mapping.redact_sign (m : Mapping) (token : Text) : (m.sign token).redact = m.redact.sign [] := by
  simp only [redact, sign, authorize_authorize]

theorem Call.redact_result (c : CallId) (call : Call) (token : Text) :
    (call.result c token).redact = call.redact.result c [] := by
  cases call with
  | token => rfl
  | refresh => rfl
  | sign headers => exact congrArg Result.signed (Mapping.redact_sign ⟨c, headers⟩ token)

/-- The guise in which every secret is blanked. -/
def redaction : Guise where
  call := Call.redact
  result := Result.redact
  mapping m := some m.redact
  token _ := []
  key := RefreshKey.redact
  request := Request.redact
  replies _ := []
  refresh_iff call := by cases call <;> simp [Call.redact]
  result_token := Call.redact_result
  mapping_owner _ _ hShown := Option.some.inj hShown ▸ rfl
  mapping_sign m token := congrArg some (m.redact_sign token)
  mappings_call c call := by cases call <;> rfl
  result_failed _ := rfl
  result_cancelled := rfl
  token_nil := rfl

namespace State

def redact (s : State) : State := redaction.state s

variable {s : State} {c : CallId} {t : TripId}

theorem redact_observe (events : List Event) (s : State) :
    (s.observe events).redact = s.redact.observe (events.map Event.redact) := redaction.state_observe events s

theorem redact_setTrip (t : TripId) (trip : Trip) (s : State) :
    (s.setTrip t trip).redact = s.redact.setTrip t trip.redact := redaction.state_setTrip t trip s

theorem trips_redact (t : TripId) (s : State) : s.redact.trips[t]? = (s.trips[t]?).map Trip.redact :=
  redaction.trips_state t s

theorem redact_stepCall (cfg : Config) (c : CallId) (s : State) :
    (s.stepCall cfg c).redact = s.redact.stepCall cfg.redact c := redaction.state_stepCall cfg c s

theorem redact_retire (t : TripId) (s : State) : (s.retire t).redact = s.redact.retire t :=
  redaction.state_retire t s

theorem redact_deliver (t : TripId) (c : CallId) (s : State) :
    (s.deliver t c).redact = s.redact.deliver t c := redaction.state_deliver c t s

theorem redact_finishTrip (t : TripId) (o : Outcome) (s : State) :
    (s.finishTrip t o).redact = s.redact.finishTrip t o.redact := redaction.state_finishTrip t o s

/-- What comes from outside does to the redacted state what it does to the state. -/
theorem redact_act (a : Action) (s : State) : (s.act a).redact = s.redact.act (redaction.action a) :=
  redaction.state_act a s

theorem weight_redact (s : State) : s.redact.weight = s.weight := redaction.weight_state s

end State

end Cache

end Bearer
