import Bearer.Cache.Refresh

/-! Callers share one cache. A lock admits them one at a time, in order of arrival; the caller that holds it either
takes the stored token or waits for a round trip to the token endpoint. -/

namespace Bearer.Cache

/-- Calls are numbered in the order in which they are made. -/
abbrev CallId := Nat

/-- Round trips are numbered in the order in which they are begun. -/
abbrev TripId := Nat

/-- What a caller asks for: a token good for longer than the margin, a new token, or a request
signed with a good token. -/
inductive Call where
  | token
  | refresh
  | sign (headers : Headers)
  deriving DecidableEq

/-- The mapping that a call to sign was given, by the number of the call, and what it holds. -/
structure Mapping where
  owner : CallId
  fields : Headers
  deriving DecidableEq

instance : CoeOut Mapping Headers := ⟨Mapping.fields⟩

/-- How a call ends. -/
inductive Result where
  | token (t : Text)
  | signed (mapping : Mapping)
  | failed (e : CallError)
  | cancelled
  deriving DecidableEq

/-- The fields of a request with its authorization set. -/
def authorize (token : Text) (headers : Headers) : Headers :=
  headers.put "Authorization" (("Bearer " : Text) ++ token)

/-- Sets the authorization in a mapping. -/
def Mapping.sign (token : Text) (m : Mapping) : Mapping := { m with fields := authorize token m.fields }

namespace Call

/-- The mapping that comes with a call. -/
def mappings (c : CallId) : Call → List Mapping
  | .token | .refresh => []
  | .sign headers => [⟨c, headers⟩]

/-- The result of a call that obtains a token. A call to sign returns the mapping that it was given. -/
def result (c : CallId) (token : Text) : Call → Result
  | .token | .refresh => .token token
  | .sign headers => .signed ⟨c, authorize token headers⟩

end Call

/-- What becomes of mappings once an outcome has reached a call: a token is set in the one that the
call was given. -/
def Outcome.sign (c : CallId) (mappings : List Mapping) : Outcome → List Mapping
  | token t => mappings.map fun m => if m.owner = c then m.sign t else m
  | failed _ | cancelled => mappings

/-- Where a call stands. -/
inductive Phase where
  /-- Its first step is scheduled. -/
  | starting
  /-- It waits for the lock. -/
  | queued
  /-- It holds the lock and waits for a round trip. -/
  | waiting (trip : TripId)
  /-- It holds the lock, and the outcome of its round trip has reached it. -/
  | delivered (outcome : Outcome)
  | finished (result : Result)
  deriving DecidableEq

/-- A call and where it stands. Once its cancellation is asked for it ends as cancelled. -/
structure Caller where
  call : Call
  phase : Phase := .starting
  cancelRequested : Bool := false
  deriving DecidableEq

/-- Where a round trip stands. -/
inductive Trip where
  /-- Its first step is scheduled. -/
  | starting
  /-- Its request is sent and not yet answered. -/
  | sent
  /-- Its request may be answered now, and the step that does so is scheduled. -/
  | released
  | finished (outcome : Outcome)
  deriving DecidableEq

namespace Trip

def isFinished : Trip → Bool
  | finished _ => true
  | starting | sent | released => false

def isSent : Trip → Bool
  | sent => true
  | starting | released | finished _ => false

end Trip

/-- How much can still come of a call. -/
def Phase.weight : Phase → Nat
  | .starting => 8
  | .queued => 7
  | .waiting _ => 2
  | .delivered _ => 1
  | .finished _ => 0

/-- How much can still come of a round trip. -/
def Trip.weight : Trip → Nat
  | .starting => 3
  | .sent => 3
  | .released => 2
  | .finished _ => 0

/-- A place in the queue for the lock: waiting, passed the lock, or given up. -/
inductive Wait where
  | waiting
  | woken
  | cancelled
  deriving DecidableEq

/-- The lock: who holds it, and who waits for it in order of arrival. -/
structure Lock where
  holder : Option CallId := none
  waiters : List (CallId × Wait) := []

namespace Lock

/-- Whether a newcomer may take the lock at once: nobody holds it, and nobody in the queue still
counts on it. -/
def isOpen (l : Lock) : Bool := l.holder.isNone && l.waiters.all fun (_, w) => w == .cancelled

def take (c : CallId) (l : Lock) : Lock := { l with holder := some c }

/-- A newcomer goes to the end of the queue. -/
def join (c : CallId) (l : Lock) : Lock := { l with waiters := l.waiters ++ [(c, .waiting)] }

/-- A caller leaves the queue. -/
def leave (c : CallId) (l : Lock) : Lock :=
  { l with waiters := l.waiters.filter fun (d, _) => d != c }

/-- Whether a caller stands in the queue and still waits. -/
def isWaiting (c : CallId) (l : Lock) : Bool :=
  l.waiters.any fun (d, w) => d == c && w == .waiting

/-- A caller that still waits gives up its place. -/
def giveUp (c : CallId) (l : Lock) : Lock :=
  { l with waiters := l.waiters.map fun (d, w) =>
      if d = c ∧ w = .waiting then (d, .cancelled) else (d, w) }

/-- Passes the lock to the first in the queue if it still waits. A first one that was passed the
lock already, or has given up, will pass it on itself. -/
def wakeFirst (l : Lock) : Lock × Option CallId :=
  match l.waiters with
  | (c, .waiting) :: rest => ({ l with waiters := (c, .woken) :: rest }, some c)
  | _ => (l, none)

/-- Gives the lock back. -/
def release (l : Lock) : Lock × Option CallId := wakeFirst { l with holder := none }

end Lock

/-- What is scheduled to go on. -/
inductive Task where
  /-- The next step of a call. -/
  | call (c : CallId)
  /-- The next step of a round trip. -/
  | trip (t : TripId)
  /-- A finished round trip stops being the one to join. -/
  | retire (t : TripId)
  /-- The outcome of a finished round trip reaches the call that waits for it. -/
  | deliver (t : TripId) (c : CallId)

/-- What is seen of a run. -/
inductive Event where
  | note (n : Note)
  | request (r : Request)
  | acquired (c : CallId)
  | arrived (t : TripId) (o : Outcome)
  | finished (c : CallId) (r : Result)
  deriving DecidableEq

/-- What tokens come from: one is given, or a key is exchanged for them. -/
inductive Source where
  | fixed (token : Text)
  | refreshable (key : RefreshKey)

/-- Which round trips have their request answered only once it is released. -/
structure Gates where
  waits : TripId → Bool

instance : Coe Bool Gates := ⟨fun all => ⟨fun _ => all⟩⟩

/-- What a cache is built with. -/
structure Config where
  source : Source
  url : Text
  margin : Duration
  gated : Gates := false
  /-- How many containers may be open at once in the body of an answer. -/
  nesting : Nat := Json.usualNesting

/-- A cache in the middle of a run, with the clock, the answers that requests will get, of which each
takes the next one and the last one serves for ever, and the mappings that callers gave to be
signed. -/
structure State where
  clock : Instant
  held : HeldToken
  replies : List Reply
  lock : Lock := {}
  /-- The round trip that callers join. -/
  pending : Option TripId := none
  calls : List Caller := []
  trips : List Trip := []
  ready : List Task := []
  trace : List Event := []
  mappings : List Mapping := []

end Bearer.Cache
