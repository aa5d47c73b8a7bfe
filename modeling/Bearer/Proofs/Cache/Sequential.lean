import Bearer.Proofs.Cache.Settlement
import Bearer.Proofs.Cache.Schedule
import Mathlib.Logic.Function.Iterate

/-! A cache without tasks, lock or round trips: calls stand in line and the first one is served to its end before the
next one is looked at. -/

namespace Bearer

/-- The grant of a reply, or how a refresh ends without one. -/
def Reply.grant (nesting : Nat) : Reply → Except Cache.Outcome Grant
  | .response r =>
    if r.isSuccess then
      match Grant.read r.body nesting with
      | .ok g => .ok g
      | .error (.malformed e) => .error (.failed (.refreshFailed (.malformed (.grant e))))
      | .error (.tooDeep container) => .error (.failed (.tooDeep container))
    else .error (.failed (.refreshFailed (.endpoint r.status r.text)))
  | .failed e => .error (.failed (.refreshFailed (.transport e)))
  | .malformed message => .error (.failed (.refreshFailed (.malformed (.reported message))))
  | .unauthorized message => .error (.failed (.unauthorized message))
  | .raised e => .error (.failed (.foreign e))
  | .interrupted message => .error (.failed (.interrupted message))
  | .cancelled => .error .cancelled

/-- What a reply comes to that arrives at the instant `now`: how the refresh ends, and the token held
from then on. A grant is stored whole and any other reply stores nothing; the exception is a grant
that expires after the last year. -/
def Reply.verdict (nesting : Nat) (now : Instant) (held : HeldToken) (reply : Reply) : Cache.Outcome × HeldToken :=
  match reply.grant nesting with
  | .error o => (o, held)
  | .ok g =>
    match g.expiry? now with
    | some expiry => (.token g.token, ⟨some g.token, some expiry⟩)
    | none =>
      (.failed .outOfRange, if g.lifetime?.isSome then { held with token := some g.token } else held)

namespace Cache

theorem verdict_eq_settlement (nesting : Nat) (margin : Duration) (key : RefreshKey) (now : Instant)
    (held : HeldToken) (reply : Reply) : reply.verdict nesting now held =
      ((settlement nesting margin key now held reply).outcome, (settlement nesting margin key now held reply).held) := by
  have hGrant {g : Grant} (hOk : reply.grant nesting = .ok g) (hSome : reply.grant? nesting = some g) :
      reply.verdict nesting now held =
        ((settlement nesting margin key now held reply).outcome,
          (settlement nesting margin key now held reply).held) := by
    rw [settlement_of_grant nesting margin key held hSome, Reply.verdict, hOk]
    dsimp only
    split
    · next expiry hExpiry =>
        rw [(store_of_expiry margin held hExpiry).1, (store_of_expiry margin held hExpiry).2]
    · next hExpiry =>
        rw [(store_of_overrun margin held hExpiry).1, (store_of_overrun margin held hExpiry).2]
  cases reply with
  | response r =>
      by_cases hSuccess : r.isSuccess
      · cases hRead : Grant.read r.body nesting with
        | ok g =>
            refine hGrant (g := g) ?_ ?_
            · simp only [Reply.grant, hSuccess, hRead, if_true]
            · simp only [Reply.grant?, hSuccess, hRead, if_true, Except.toOption]
        | error refusal =>
            cases refusal <;>
              simp only [Reply.verdict, Reply.grant, settlement, hSuccess, hRead, if_true, refuse]
      · simp only [Reply.verdict, Reply.grant, settlement, hSuccess, Bool.false_eq_true, if_false, refuse]
  | _ => rfl

/-- Where the first call in line stands: it is not looked at yet, its request is to be sent, its request
is sent, or the answer may be taken. -/
inductive Stage where
  | idle
  | due
  | sent
  | released
  deriving DecidableEq

/-- How far the first call has come. -/
def Stage.rank : Stage → Nat
  | .idle => 0
  | .due => 1
  | .sent | .released => 2

/-- A cache that serves calls one at a time, with the results of the calls that it has served. -/
structure Sequential where
  clock : Instant
  held : HeldToken
  replies : List Reply
  line : List Call := []
  stage : Stage := .idle
  requests : List Request := []
  results : List Result := []

namespace Sequential

/-- A cache that nobody has called yet. -/
def start (clock : Instant) (held : HeldToken) (replies : List Reply) : Sequential :=
  { clock, held, replies }

/-- The first call is served, and the others come next. -/
def finish (others : List Call) (r : Result) (q : Sequential) : Sequential :=
  { q with line := others, stage := .idle, results := q.results ++ [r] }

/-- The first call takes the next answer. -/
def take (nesting : Nat) (call : Call) (others : List Call) (q : Sequential) : Sequential :=
  let verdict := (State.takeReply q.replies).1.verdict nesting q.clock q.held
  finish others (State.resultOf q.results.length call verdict.1)
    { q with held := verdict.2, replies := (State.takeReply q.replies).2 }

/-- Whether a call can do with the held token. -/
def canReuse? (cfg : Config) (call : Call) (q : Sequential) : Option Bool :=
  match call with
  | .refresh => some false
  | .token | .sign _ => q.held.isFresh? q.clock cfg.margin

/-- Goes on with the first call. -/
def serve (cfg : Config) (request : Request) (q : Sequential) : Sequential :=
  match q.line with
  | [] => q
  | call :: others =>
    match q.stage with
    | .idle =>
      match q.canReuse? cfg call with
      | some true => q.finish others (call.result q.results.length (q.held.token.getD []))
      | some false => { q with stage := .due }
      | none => q.finish others (.failed .outOfRange)
    | .due =>
      let waits := cfg.gated.waits q.requests.length
      let q := { q with requests := q.requests ++ [request] }
      if waits then { q with stage := .sent } else q.take cfg.nesting call others
    | .sent => q
    | .released => q.take cfg.nesting call others

/-- Performs an action that cancels nobody. -/
def act (q : Sequential) : Action → Sequential
  | .call call => { q with line := q.line ++ [call] }
  | .advance micros => { q with clock := ((Duration.ofMicros? micros).bind q.clock.add?).getD q.clock }
  | .supply replies => { q with replies }
  | .release => if q.stage = .sent then { q with stage := .released } else q
  | .cancel _ | .rest => q

/-- The state after one move. -/
def move (cfg : Config) (request : Request) (q : Sequential) : Move → Sequential
  | .act a => q.act a
  | .turn => q.serve cfg request

/-- The state after a schedule. -/
def play (cfg : Config) (request : Request) (q : Sequential) (moves : List Move) : Sequential :=
  moves.foldl (move cfg request) q

/-- Serves as many calls as can be served. -/
def settle (cfg : Config) (request : Request) (q : Sequential) : Sequential :=
  (serve cfg request)^[3 * q.line.length] q

/-- Performs actions in order and then serves all calls that can be served. -/
def step (cfg : Config) (request : Request) (q : Sequential) (actions : List Action) : Sequential :=
  (actions.foldl act q).settle cfg request

/-- Performs steps in order. -/
def run (cfg : Config) (request : Request) (q : Sequential) (steps : List (List Action)) : Sequential :=
  steps.foldl (step cfg request) q

/-- The calls that are served, each with its result. -/
def finished (q : Sequential) : List (CallId × Result) := q.results.mapIdx fun c r => (c, r)

variable {cfg : Config} {request : Request} {q : Sequential}

/-- No call can be served any further: none is left, or the first one waits for its answer. -/
def IsDone (q : Sequential) : Prop := q.line = [] ∨ q.stage = .sent

/-- How often the calls in line can be served. -/
def rank (q : Sequential) : Nat := 3 * q.line.length - q.stage.rank

theorem serve_of_done (h : q.IsDone) : q.serve cfg request = q := by
  unfold serve
  split
  · rfl
  · next hLine =>
      rcases h with hEmpty | hSent
      · rw [hEmpty] at hLine
        contradiction
      · rw [hSent]

theorem rank_finish_lt {call : Call} {others : List Call} (hLine : q.line = call :: others) (r : Result)
    {q' : Sequential} : (q'.finish others r).rank < q.rank := by
  have hStage : q.stage.rank ≤ 2 := by cases q.stage <;> simp [Stage.rank]
  have hIdle : Stage.idle.rank = 0 := rfl
  simp only [rank, finish, hLine, List.length_cons]
  omega

theorem rank_serve_lt (cfg : Config) (request : Request) (h : ¬q.IsDone) : (q.serve cfg request).rank < q.rank := by
  unfold serve
  split
  · next hLine => exact absurd (.inl hLine) h
  · next call others hLine =>
      split
      · next hStage =>
          split
          · exact rank_finish_lt hLine _
          · simp only [rank, hLine, hStage, Stage.rank, List.length_cons]
            omega
          · exact rank_finish_lt hLine _
      · next hStage =>
          dsimp only
          split
          · simp only [rank, hLine, hStage, Stage.rank, List.length_cons]
            omega
          · exact rank_finish_lt hLine _
      · next hStage => exact absurd (.inr hStage) h
      · exact rank_finish_lt hLine _

theorem iterate_of_done (h : q.IsDone) (n : Nat) : (serve cfg request)^[n] q = q := by
  induction n with
  | zero => rfl
  | succ n ih => rw [Function.iterate_succ_apply, serve_of_done h, ih]

theorem iterate_done (n : Nat) (q : Sequential) (hRank : q.rank ≤ n) :
    ((serve cfg request)^[n] q).IsDone := by
  induction n generalizing q with
  | zero =>
      by_contra hDone
      change ¬q.IsDone at hDone
      have hLess := rank_serve_lt cfg request hDone
      omega
  | succ n ih =>
      by_cases hDone : q.IsDone
      · rw [iterate_of_done hDone]
        exact hDone
      · have hLess := rank_serve_lt cfg request hDone
        exact ih (q.serve cfg request) (by omega)

/-- Serving as long as anything can be served ends in the settled state. -/
theorem iterate_eq_settle {n : Nat} (h : ((serve cfg request)^[n] q).IsDone) :
    (serve cfg request)^[n] q = q.settle cfg request := by
  have hSettled : (q.settle cfg request).IsDone := iterate_done _ q (by simp only [rank]; omega)
  rcases Nat.le_total n (3 * q.line.length) with hLess | hMore
  · obtain ⟨more, hSum⟩ := Nat.exists_eq_add_of_le hLess
    rw [settle, hSum, Nat.add_comm, Function.iterate_add_apply, iterate_of_done h]
  · obtain ⟨more, rfl⟩ := Nat.exists_eq_add_of_le hMore
    rw [Nat.add_comm, Function.iterate_add_apply]
    exact iterate_of_done hSettled more

end Sequential

end Cache

end Bearer
