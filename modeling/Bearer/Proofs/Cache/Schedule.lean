import Bearer.Cache.Run
import Mathlib.Data.List.Basic

/-! A schedule interleaves what comes from outside with turns of the task queue in any order. -/

namespace Bearer.Cache

/-- One thing that happens to a cache: something from outside, or the next task. -/
inductive Move where
  | act (a : Action)
  | turn

namespace Move

/-- Moves that leave every call to its own end. -/
def IsCalm : Move → Prop
  | act (.cancel _) => False
  | _ => True

/-- Moves that come from outside. -/
def isAct : Move → Bool
  | act _ => true
  | turn => false

end Move

namespace State

/-- A cache that nobody has called yet. -/
def start (clock : Instant) (held : HeldToken) (replies : List Reply) : State :=
  { clock, held, replies }

/-- The state after one move. -/
def move (cfg : Config) (s : State) : Move → State
  | .act a => s.act a
  | .turn => s.turn cfg

/-- The state after a schedule. -/
def play (cfg : Config) (s : State) (moves : List Move) : State := moves.foldl (move cfg) s

variable {cfg : Config}

@[simp] theorem play_nil (s : State) : s.play cfg [] = s := rfl

@[simp] theorem play_cons (s : State) (m : Move) (moves : List Move) :
    s.play cfg (m :: moves) = (s.move cfg m).play cfg moves := rfl

@[simp] theorem play_append (s : State) (first second : List Move) :
    s.play cfg (first ++ second) = (s.play cfg first).play cfg second :=
  List.foldl_append

/-- What holds at the start and survives every move holds after every schedule. -/
theorem play_invariant {P : State → Prop} {s : State} (hStart : P s)
    (hMove : ∀ s m, P s → P (s.move cfg m)) (moves : List Move) : P (s.play cfg moves) := by
  induction moves generalizing s with
  | nil => exact hStart
  | cons m moves ih => exact ih (hMove s m hStart)

/-- Some move of a schedule, together with the state that it is made in, is of a kind. -/
def Sometime (cfg : Config) (E : State → Move → Prop) (s : State) : List Move → Prop
  | [] => False
  | m :: moves => E s m ∨ (s.move cfg m).Sometime cfg E moves

/-- Every move of a schedule, together with the state that it is made in, is of a kind. -/
def Always (cfg : Config) (E : State → Move → Prop) (s : State) : List Move → Prop
  | [] => True
  | m :: moves => E s m ∧ (s.move cfg m).Always cfg E moves

variable {E : State → Move → Prop}

theorem Sometime.imp {F : State → Move → Prop} {s : State} {moves : List Move}
    (h : s.Sometime cfg E moves) (hImp : ∀ u m, E u m → F u m) : s.Sometime cfg F moves := by
  induction moves generalizing s with
  | nil => exact h
  | cons m moves ih => exact Or.imp (hImp s m) ih h

theorem Sometime.elim {P : Prop} {s : State} {moves : List Move} (h : s.Sometime cfg E moves)
    (hP : ∀ u m, E u m → P) : P := by
  induction moves generalizing s with
  | nil => exact False.elim h
  | cons m moves ih => exact Or.elim h (hP s m) ih

/-- A move that is made some time is made in the state that the moves before it lead to. -/
theorem Sometime.exists_moment {s : State} {moves : List Move} (h : s.Sometime cfg E moves) :
    ∃ before m later, moves = before ++ m :: later ∧ E (s.play cfg before) m := by
  induction moves generalizing s with
  | nil => exact False.elim h
  | cons m moves ih =>
      rcases h with hNow | hLater
      · exact ⟨[], m, moves, rfl, hNow⟩
      · obtain ⟨before, m', later, rfl, hThen⟩ := ih hLater
        exact ⟨m :: before, m', later, rfl, hThen⟩

theorem Sometime.and_always {F : State → Move → Prop} {s : State} {moves : List Move}
    (h : s.Sometime cfg E moves) (hAlways : s.Always cfg (fun u m => E u m → F u m) moves) :
    s.Sometime cfg F moves := by
  induction moves generalizing s with
  | nil => exact h
  | cons m moves ih => exact Or.imp hAlways.1 (fun hLater => ih hLater hAlways.2) h

theorem Always.imp {F : State → Move → Prop} {s : State} {moves : List Move}
    (h : s.Always cfg E moves) (hImp : ∀ u m, E u m → F u m) : s.Always cfg F moves := by
  induction moves generalizing s with
  | nil => trivial
  | cons m moves ih => exact ⟨hImp s m h.1, ih h.2⟩

theorem always_of_never {F : State → Move → Prop} {s : State} {moves : List Move}
    (h : ¬s.Sometime cfg E moves) : s.Always cfg (fun u m => E u m → F u m) moves := by
  induction moves generalizing s with
  | nil => trivial
  | cons m moves ih => exact ⟨fun hNow => absurd (.inl hNow) h, ih fun hLater => h (.inr hLater)⟩

theorem sometime_concat {s : State} {moves : List Move} {m : Move} :
    s.Sometime cfg E (moves ++ [m]) ↔ s.Sometime cfg E moves ∨ E (s.play cfg moves) m := by
  induction moves generalizing s with
  | nil => simp [Sometime]
  | cons first moves ih => simp only [List.cons_append, Sometime, ih, play_cons, or_assoc]

theorem always_concat {s : State} {moves : List Move} {m : Move} :
    s.Always cfg E (moves ++ [m]) ↔ s.Always cfg E moves ∧ E (s.play cfg moves) m := by
  induction moves generalizing s with
  | nil => simp [Always]
  | cons first moves ih => simp only [List.cons_append, Always, ih, play_cons, and_assoc]

/-- An answer takes the next reply. -/
theorem answerTrip_eq (key : RefreshKey) (t : TripId) (s : State) :
    s.answerTrip cfg key t =
      let result := settlement cfg.nesting cfg.margin key s.clock s.held (takeReply s.replies).1
      ({ s with replies := (takeReply s.replies).2, held := result.held }.observe
        (result.notes.map .note)).finishTrip t result.outcome := rfl

theorem dropFinished_eq (s : State) :
    s.dropFinished = { s with pending := s.pending.filter fun t => !s.isFinished t } := by
  unfold dropFinished
  split
  · next t hPending =>
      rw [hPending, Option.filter_some]
      cases s.isFinished t <;> simp [← hPending]
  · next hPending => rw [hPending, Option.filter_none, ← hPending]

/-- A finished round trip is not joined. -/
theorem isFinished_of_joined {s : State} {t : TripId} (hJoin : s.dropFinished.pending = some t) :
    s.dropFinished.isFinished t = false := by
  rw [dropFinished_eq] at hJoin ⊢
  exact (Bool.not_eq_true' _).mp (Option.filter_eq_some_iff.mp hJoin).2

/-- The request that is released is one that waits for its answer, unless none does. -/
theorem release_cases (s : State) : (s.release = s ∧ ∀ t : TripId, s.trips[t]? ≠ some .sent) ∨
    ∃ t, s.trips[t]? = some .sent ∧ s.release = (s.setTrip t .released).schedule [.trip t] := by
  unfold release
  split
  · next hNone =>
      rw [List.findIdx?_eq_none_iff] at hNone
      refine .inl ⟨rfl, ?_⟩
      intro t hTrip
      have hSent := hNone .sent (List.mem_of_getElem? hTrip)
      contradiction
  · next t hFind =>
      obtain ⟨ht, hSent, _⟩ := List.findIdx?_eq_some_iff_getElem.mp hFind
      refine .inr ⟨t, ?_, rfl⟩
      rw [List.getElem?_eq_getElem ht]
      cases hTrip : s.trips[t] with
      | sent => rfl
      | _ => simp [hTrip, Trip.isSent] at hSent

/-- The passing of time moves nothing but the clock, which stops at the end of the calendar. -/
theorem act_advance_eq (s : State) (micros : Int) : s.act (.advance micros) =
    { s with clock := ((Duration.ofMicros? micros).bind s.clock.add?).getD s.clock } := by
  change (s.advance? micros).getD s = _
  rw [advance?]
  cases Duration.ofMicros? micros with
  | none => rfl
  | some d =>
      cases hLater : s.clock.add? d with
      | none => simp [hLater]
      | some clock => simp [hLater]

theorem act_advance (s : State) (micros : Int) : ∃ clock, s.act (.advance micros) = { s with clock } :=
  ⟨_, act_advance_eq s micros⟩

/-- The calls that have ended, in the order in which they did. -/
def finished (s : State) : List (CallId × Result) :=
  s.trace.filterMap fun
    | .finished c r => some (c, r)
    | _ => none

theorem requests_observe (events : List Event) (s : State) : (s.observe events).requests =
    s.requests ++ events.filterMap fun
      | .request r => some r
      | _ => none := List.filterMap_append

theorem finished_observe (events : List Event) (s : State) : (s.observe events).finished =
    s.finished ++ events.filterMap fun
      | .finished c r => some (c, r)
      | _ => none := List.filterMap_append

theorem requests_observe_eq {events : List Event} (hEvents : ∀ r, .request r ∉ events) (s : State) :
    (s.observe events).requests = s.requests := by
  have hNone : (events.filterMap fun
      | .request r => some r
      | _ => none) = ([] : List Request) := by
    rw [List.filterMap_eq_nil_iff]
    intro e he
    cases e with
    | request r => exact absurd he (hEvents r)
    | _ => rfl
  rw [requests_observe, hNone, List.append_nil]

theorem finished_observe_eq {events : List Event} (hEvents : ∀ c r, .finished c r ∉ events) (s : State) :
    (s.observe events).finished = s.finished := by
  have hNone : (events.filterMap fun
      | .finished c r => some (c, r)
      | _ => none) = ([] : List (CallId × Result)) := by
    rw [List.filterMap_eq_nil_iff]
    intro e he
    cases e with
    | finished c r => exact absurd he (hEvents c r)
    | _ => rfl
  rw [finished_observe, hNone, List.append_nil]

theorem acts_eq_play (s : State) (actions : List Action) :
    actions.foldl act s = s.play cfg (actions.map .act) := by
  rw [play, List.foldl_map]
  rfl

theorem turns_eq_play (cfg : Config) (s : State) (bound : Nat) :
    ∃ count, s.turns cfg bound = s.play cfg (List.replicate count .turn) := by
  induction bound generalizing s with
  | zero => exact ⟨0, rfl⟩
  | succ bound ih =>
      rw [turns]
      split
      · exact ⟨0, rfl⟩
      · obtain ⟨count, hCount⟩ := ih (s.turn cfg)
        exact ⟨count + 1, hCount⟩

theorem step_eq_play (cfg : Config) (s : State) (actions : List Action) :
    ∃ count, s.step cfg actions =
      s.play cfg (actions.map .act ++ List.replicate count .turn) := by
  obtain ⟨count, hCount⟩ := turns_eq_play cfg (actions.foldl act s) (actions.foldl act s).weight
  refine ⟨count, ?_⟩
  rw [step, settle, hCount, play_append, acts_eq_play]

/-- The state that a run reaches is reached by a schedule as well. -/
theorem run_eq_play (cfg : Config) (s : State) (steps : List (List Action)) :
    ∃ moves, s.run cfg steps = s.play cfg moves := by
  induction steps generalizing s with
  | nil => exact ⟨[], rfl⟩
  | cons actions steps ih =>
      obtain ⟨count, hStep⟩ := step_eq_play cfg s actions
      obtain ⟨moves, hMoves⟩ := ih (s.step cfg actions)
      refine ⟨(actions.map .act ++ List.replicate count .turn) ++ moves, ?_⟩
      rw [run, List.foldl_cons, play_append, ← hStep]
      exact hMoves

end State

end Bearer.Cache
