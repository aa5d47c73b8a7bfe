import Bearer.Proofs.Cache.Atomicity
import Bearer.Proofs.Cache.Wakeup

/-! A call reads the token of its round trip one or more turns after it was stored. -/

namespace Bearer.Cache

/-- A call ends with what it asked for. -/
def Result.IsSuccess : Result → Prop
  | .token _ | .signed _ => True
  | .failed _ | .cancelled => False

namespace State

variable {cfg : Config} {s : State} {c : CallId} {o : Outcome} {moves : List Move} {a : Answer}

theorem clock_act {a : Action} (hTime : ∀ micros, a ≠ .advance micros) : (s.act a).clock = s.clock := by
  cases a with
  | advance micros => exact absurd rfl (hTime micros)
  | cancel d => exact (cancel_frame d s).1.clock
  | release =>
      rw [act, release]
      split <;> rfl
  | call call => rfl
  | supply replies => rfl
  | rest => rfl

/-- No task has been performed since there was last nothing to do. -/
def Resting (cfg : Config) (s : State) (moves : List Move) : Prop :=
  ∃ (first : List Move) (actions : List Action), moves = first ++ actions.map .act ∧ (s.play cfg first).ready = []

/-- The clock does not move while tasks are running. -/
inductive Steady (cfg : Config) (s : State) : List Move → Prop where
  | nil : Steady cfg s []
  | turn {moves : List Move} (h : Steady cfg s moves) : Steady cfg s (moves ++ [.turn])
  | act {moves : List Move} (h : Steady cfg s moves) (a : Action)
      (hTime : ∀ micros, a = .advance micros → s.Resting cfg moves) : Steady cfg s (moves ++ [.act a])

namespace Steady

theorem acts (h : s.Steady cfg moves) (hReady : (s.play cfg moves).ready = []) (actions : List Action) :
    s.Steady cfg (moves ++ actions.map .act) := by
  induction actions using List.reverseRecOn with
  | nil => simpa using h
  | append_singleton actions a ih =>
      rw [List.map_append, List.map_singleton, ← List.append_assoc]
      exact ih.act a fun _ _ => ⟨moves, actions, rfl, hReady⟩

theorem turns (h : s.Steady cfg moves) (n : Nat) : s.Steady cfg (moves ++ List.replicate n .turn) := by
  induction n with
  | zero => simpa using h
  | succ n ih =>
      rw [List.replicate_succ', ← List.append_assoc]
      exact ih.turn

/-- A run in steps is a schedule in which time passes only between tasks. -/
theorem of_run (cfg : Config) (hReady : s.ready = []) (steps : List (List Action)) :
    ∃ moves, s.Steady cfg moves ∧ s.play cfg moves = s.run cfg steps := by
  induction steps using List.reverseRecOn with
  | nil => exact ⟨[], .nil, rfl⟩
  | append_singleton steps actions ih =>
      obtain ⟨moves, hSteady, hMoves⟩ := ih
      obtain ⟨count, hStep⟩ := step_eq_play cfg (s.run cfg steps) actions
      have hSettled : (s.play cfg moves).ready = [] := hMoves ▸ run_ready s hReady steps
      refine ⟨_, (hSteady.acts hSettled actions).turns count, ?_⟩
      rw [List.append_assoc, play_append, hMoves, ← hStep, run, run, List.foldl_append]
      rfl

end Steady

/-- The last answer of a schedule was taken not long ago: there has been something to do ever since. -/
def JustTook (cfg : Config) (s : State) (moves : List Move) (a : Answer) : Prop :=
  ∃ before after, moves = before ++ .turn :: after ∧ (s.play cfg before).answer? cfg .turn = some a ∧
    ((s.play cfg before).turn cfg).answers cfg after = [] ∧
    ∀ during, during <+: after → (((s.play cfg before).turn cfg).play cfg during).ready ≠ []

namespace JustTook

theorem now (hAnswer : (s.play cfg moves).answer? cfg .turn = some a)
    (hBusy : ((s.play cfg moves).turn cfg).ready ≠ []) : s.JustTook cfg (moves ++ [.turn]) a := by
  refine ⟨moves, [], rfl, hAnswer, rfl, fun during hDuring => ?_⟩
  rw [List.prefix_nil.mp hDuring]
  exact hBusy

theorem later (h : s.JustTook cfg moves a) {m : Move} (hNone : (s.play cfg moves).answer? cfg m = none)
    (hBusy : (s.play cfg (moves ++ [m])).ready ≠ []) : s.JustTook cfg (moves ++ [m]) a := by
  obtain ⟨before, after, rfl, hAnswer, hLast, hAlways⟩ := h
  have hPlay (during : List Move) : s.play cfg (before ++ .turn :: during) =
      ((s.play cfg before).turn cfg).play cfg during := play_append s before _
  refine ⟨before, after ++ [m], by simp, hAnswer, ?_, fun during hDuring => ?_⟩
  · rw [hPlay] at hNone
    rw [answers_append, hLast, answers, hNone]
    rfl
  · rcases List.prefix_concat_iff.mp hDuring with rfl | hEarlier
    · rw [← hPlay]
      simpa using hBusy
    · exact hAlways during hEarlier

end JustTook

/-- An outcome is on its way to a call: its round trip has finished, or it has been handed over. -/
inductive Incoming (s : State) (c : CallId) (o : Outcome) : Prop where
  | arrived (t : TripId) (hPhase : s.phase? c = some (.waiting t)) (hTrip : s.trips[t]? = some (.finished o))
  | delivered (hPhase : s.phase? c = some (.delivered o))

namespace Incoming

/-- There is something to do as long as an outcome is on its way. -/
theorem busy (h : s.Incoming c o) (hSound : Sound cfg s) : s.ready ≠ [] := by
  intro hReady
  have hWaits {p : Phase} (hPhase : s.phase? c = some p) (hHolds : p.holds = true) :
      ∃ t, p = .waiting t ∧ s.trips[t]? = some .sent := by
    obtain ⟨_, t, hWaiting, hSent⟩ :=
      hSound.holder_waits hReady (hSound.coherent.holder_of_holds hPhase hHolds)
    exact ⟨t, Option.some.inj (hPhase.symm.trans hWaiting), hSent⟩
  cases h with
  | arrived t hPhase hTrip =>
      obtain ⟨u, hSame, hSent⟩ := hWaits hPhase rfl
      cases hSame
      rw [hTrip] at hSent
      cases hSent
  | delivered hPhase =>
      obtain ⟨u, hSame, _⟩ := hWaits hPhase rfl
      cases hSame

/-- While an outcome is on its way no answer can be taken. -/
theorem no_answer (h : s.Incoming c o) (hTenure : s.Tenure) (m : Move) : s.answer? cfg m = none := by
  cases hAnswer : s.answer? cfg m with
  | none => rfl
  | some a =>
      obtain ⟨_, u, hOpen⟩ := underWay_of_answer hAnswer
      cases h with
      | arrived t hPhase hTrip =>
          have hut := hTenure.waiting c t u hPhase hOpen
          exact absurd hTrip (hut ▸ hOpen).not_finished
      | delivered hPhase => exact absurd hOpen (hTenure.delivered c o u hPhase)

/-- What comes from outside sends no outcome on its way. -/
theorem of_act {a : Action} (h : (s.act a).Incoming c o) : s.Incoming c o := by
  have hPhased {p : Phase} (hPhase : (s.act a).phase? c = some p) (hHolds : p.holds = true) :
      s.phase? c = some p := by
    rcases phase?_act s a c with hSame | ⟨_, hStarting⟩
    · exact hSame ▸ hPhase
    · rw [hPhase, Option.some.injEq] at hStarting
      rw [hStarting] at hHolds
      contradiction
  cases h with
  | arrived t hPhase hTrip =>
      refine .arrived t (hPhased hPhase rfl) ?_
      obtain ⟨_, hTrips | ⟨u, hSent, hTrips⟩⟩ := act_effect s a
      · exact hTrips ▸ hTrip
      · rw [hTrips] at hTrip
        rcases getElem?_set_cases (t := t) .released hSent with hSame | ⟨_, hReleased⟩
        · exact hSame ▸ hTrip
        · rw [hTrip] at hReleased
          cases hReleased
  | delivered hPhase => exact .delivered (hPhased hPhase rfl)

theorem of_acts {actions : List Action} (h : (s.play cfg (actions.map .act)).Incoming c o) :
    s.Incoming c o := by
  induction actions generalizing s with
  | nil => exact h
  | cons a actions ih => exact of_act (a := a) (ih h)

/-- An outcome that a turn sends on its way is the one that the turn ends a round trip with. -/
theorem of_turn (h : (s.turn cfg).Incoming c o) (hSound : Sound cfg s) :
    s.Incoming c o ∨ s.Ends cfg .turn o := by
  -- a call that waits after the turn either waited before or has just been given the lock
  have hWaited {t : TripId} (hPhase : s.phase? c = some (.waiting t))
      (hTrip : (s.turn cfg).trips[t]? = some (.finished o)) : s.Incoming c o ∨ s.Ends cfg .turn o := by
    by_cases hOld : s.trips[t]? = some (.finished o)
    · exact .inl (.arrived t hPhase hOld)
    · exact .inr (ends_of_finished (m := .turn) hTrip hOld)
  cases calls_effect hSound.coherent with
  | quiet hCalls _ =>
      cases h with
      | arrived t hPhase hTrip => exact hWaited (phase?_congr hCalls c ▸ hPhase) hTrip
      | delivered hPhase => exact .inl (.delivered (phase?_congr hCalls c ▸ hPhase))
  | stepped d k _ p trips _ hCall hCalls hTrips _ hStep =>
      by_cases hcd : c = d
      · subst hcd
        have hSelf := phase?_setPhase_self hCalls hCall
        cases h with
        | arrived t hPhase hTrip =>
            rw [hSelf, Option.some.injEq] at hPhase
            rw [hTrips] at hTrip
            subst hPhase
            cases hStep with
            | joined _ _ _ _ hOpen => simp [isFinished, hTrip, Trip.isFinished] at hOpen
            | began _ _ _ => simp at hTrip
        | delivered hPhase =>
            rw [hSelf, Option.some.injEq] at hPhase
            subst hPhase
            cases hStep
      · have hSame := phase?_setPhase_ne hCalls hcd
        cases h with
        | arrived t hPhase hTrip => exact hWaited (hSame ▸ hPhase) hTrip
        | delivered hPhase => exact .inl (.delivered (hSame ▸ hPhase))
  | delivered t d call _ o' _ hCall hTrip hCalls hTrips =>
      by_cases hcd : c = d
      · subst hcd
        have hSelf := phase?_setPhase_self hCalls hCall
        cases h with
        | arrived u hPhase _ =>
            rw [hSelf] at hPhase
            cases hPhase
        | delivered hPhase =>
            rw [hSelf, Option.some.injEq, Phase.delivered.injEq] at hPhase
            subst hPhase
            exact .inl (.arrived t (phase?_eq_some.mpr ⟨_, hCall, rfl⟩) hTrip)
      · have hSame := phase?_setPhase_ne hCalls hcd
        cases h with
        | arrived u hPhase hTrip' => exact hWaited (hSame ▸ hPhase) hTrip'
        | delivered hPhase => exact .inl (.delivered (hSame ▸ hPhase))

end Incoming

/-- The token of an answer that was just taken is held, with the expiry that its grant calls for. -/
structure Granted (cfg : Config) (s : State) (moves : List Move) (token : Text) (a : Answer) (g : Grant)
    (expiry : Instant) : Prop where
  taken : s.JustTook cfg moves a
  now : a.now = (s.play cfg moves).clock
  grant : a.reply.grant? cfg.nesting = some g
  token_eq : g.token = token
  expires : g.expiry? a.now = some expiry
  held : (s.play cfg moves).held = ⟨some token, some expiry⟩

theorem Granted.later {token : Text} {g : Grant} {expiry : Instant}
    (h : s.Granted cfg moves token a g expiry) {m : Move}
    (hNone : (s.play cfg moves).answer? cfg m = none) (hBusy : (s.play cfg (moves ++ [m])).ready ≠ [])
    (hClock : (s.play cfg (moves ++ [m])).clock = (s.play cfg moves).clock) :
    s.Granted cfg (moves ++ [m]) token a g expiry where
  taken := h.taken.later hNone hBusy
  now := h.now.trans hClock.symm
  grant := h.grant
  token_eq := h.token_eq
  expires := h.expires
  held := by
    rw [play_append, play_cons, play_nil, held_move, hNone]
    exact h.held

/-- A token that is on its way to a call is the one that was granted last, and is held. -/
theorem granted_of_incoming (hSound : Sound cfg s) (h : s.Steady cfg moves) {token : Text}
    (hIncoming : (s.play cfg moves).Incoming c (.token token)) (hReady : s.ready = []) :
    ∃ a g expiry, s.Granted cfg moves token a g expiry := by
  induction h with
  | nil => exact absurd hReady (hIncoming.busy hSound)
  | @turn moves _ ih =>
      have hNow := hSound.play moves
      have hBusy := hIncoming.busy (hSound.play (moves ++ [.turn]))
      have hNext : s.play cfg (moves ++ [.turn]) = (s.play cfg moves).turn cfg := play_append s moves _
      rw [hNext] at hIncoming hBusy
      rcases hIncoming.of_turn hNow with hOld | hEnds
      · obtain ⟨a, g, expiry, hGranted⟩ := ih hOld
        exact ⟨a, g, expiry, hGranted.later (hOld.no_answer hNow.tenure .turn) (hNext ▸ hBusy)
          (hNext ▸ clock_turn cfg _)⟩
      · generalize hToken : Outcome.token token = outcome at hEnds
        cases hEnds with
        | refused _ _ _ _ _ => contradiction
        | answered key a hSource hAnswer =>
            obtain ⟨g, expiry, hGrant, hSame, hExpires, hHeld⟩ := grant_of_token cfg.nesting cfg.margin key _ hToken.symm
            refine ⟨a, g, expiry, .now hAnswer hBusy, ?_, hGrant, hSame, hExpires, ?_⟩
            · rw [hNext, clock_turn]
              exact (underWay_of_answer hAnswer).1
            · rw [hNext, ← State.move, held_move, hAnswer, Option.toList_some, List.foldl_cons,
                List.foldl_nil, ← held_settlement cfg.nesting cfg.margin key]
              exact hHeld
  | @act moves _ a hTime ih =>
      have hBusy := hIncoming.busy (hSound.play (moves ++ [.act a]))
      have hNext : s.play cfg (moves ++ [.act a]) = (s.play cfg moves).act a := play_append s moves _
      rw [hNext] at hIncoming
      have hOld := hIncoming.of_act
      have hClock : ((s.play cfg moves).act a).clock = (s.play cfg moves).clock := by
        refine clock_act fun micros ha => ?_
        -- nothing is on its way as long as no task has been performed
        obtain ⟨first, actions, rfl, hSettled⟩ := hTime micros ha
        rw [play_append] at hOld
        exact absurd hSettled (hOld.of_acts.busy (hSound.play first))
      obtain ⟨b, g, expiry, hGranted⟩ := ih hOld
      exact ⟨b, g, expiry, hGranted.later rfl hBusy (hNext ▸ hClock)⟩

/-- A call that succeeds in a turn either takes the stored token, which is good for longer than the
margin, or the token of its round trip, which has reached it. -/
theorem token_of_success {key : RefreshKey} (hSource : cfg.source = .refreshable key) (hSound : Sound cfg s)
    {k : Caller} {r : Result} (hCall : s.calls[c]? = some k) (hOpen : s.result? c = none)
    (hEnd : (s.turn cfg).result? c = some r) (hSuccess : r.IsSuccess) :
    ∃ token, r = k.call.result c token ∧ (s.turn cfg).held = s.held ∧
      ((∃ expiry, s.held = ⟨some token, some expiry⟩ ∧
          s.clock.micros < expiry.micros - cfg.margin.micros) ∨ s.Incoming c (.token token)) := by
  have hEnd' := result?_eq_some.mp hEnd
  have hChanged : (s.turn cfg).phase? c ≠ s.phase? c := by
    intro hSame
    rw [result?_eq_some.mpr (hSame ▸ hEnd')] at hOpen
    contradiction
  cases calls_effect hSound.coherent with
  | quiet hCalls _ => exact absurd (phase?_congr hCalls c) hChanged
  | stepped d k' _ p trips _ hCall' hCalls _ hStore hStep =>
      by_cases hcd : c = d
      · subst hcd
        have hk : k' = k := Option.some.inj (hCall'.symm.trans hCall)
        have hPhase := phase?_setPhase_self hCalls hCall'
        rw [hEnd', Option.some.injEq] at hPhase
        subst hk hPhase
        cases hStep with
        | gaveUp _ => exact hSuccess.elim
        | fixed _ token hFixed => rw [hSource] at hFixed; contradiction
        | unknown _ _ _ => exact hSuccess.elim
        | reused _ token expiry _ hHeld hFresh =>
            exact ⟨token, rfl, hStore.held, .inl ⟨expiry, hHeld, hFresh⟩⟩
        | received o hDelivered _ =>
            cases o with
            | token token =>
                exact ⟨token, rfl, hStore.held, .inr (.delivered (phase?_eq_some.mpr ⟨_, hCall, hDelivered⟩))⟩
            | failed e => exact hSuccess.elim
            | cancelled => exact hSuccess.elim
      · exact absurd (phase?_setPhase_ne hCalls hcd) hChanged
  | delivered t d call _ o _ hCall' _ hCalls _ =>
      by_cases hcd : c = d
      · subst hcd
        rw [phase?_setPhase_self hCalls hCall'] at hEnd'
        cases hEnd'
      · exact absurd (phase?_setPhase_ne hCalls hcd) hChanged

/-- A token that is handed out is the current one and is fresh. Under every schedule in which the clock
does not move while tasks are running, a call on a refreshable credential that succeeds hands out, or
signs with, the token that is held at that moment. Its expiry lies later than the margin from now, unless
the last answer has only just been taken and grants this token for no longer than the margin. All moments
of a run in steps are reached by such schedules. -/
theorem successful_call_has_current_token (cfg : Config) (key : RefreshKey)
    (hSource : cfg.source = .refreshable key) (clock : Instant) (held : HeldToken) (replies : List Reply) :
    let first := start clock held replies
    (∀ moves, first.Steady cfg moves →
      let s := first.play cfg moves
      ∀ (m : Move) (c : CallId) (k : Caller) (r : Result), s.calls[c]? = some k → s.result? c = none →
        (s.move cfg m).result? c = some r → r.IsSuccess →
        ∃ token expiry, r = k.call.result c token ∧ (s.move cfg m).held = ⟨some token, some expiry⟩ ∧
          ((s.move cfg m).clock.micros < expiry.micros - cfg.margin.micros ∨
            ∃ a g, first.JustTook cfg moves a ∧ a.now = (s.move cfg m).clock ∧
              a.reply.grant? cfg.nesting = some g ∧ g.token = token ∧ g.expiry? a.now = some expiry ∧
              g.seconds * 1000000 ≤ cfg.margin.micros)) ∧
    ∀ (steps : List (List Action)) (actions : List Action) (n : Nat), ∃ moves, first.Steady cfg moves ∧
      (actions.foldl act (first.run cfg steps)).play cfg (List.replicate n .turn) = first.play cfg moves := by
  intro first
  have hStart : Sound cfg first := .start clock held replies
  constructor
  · intro moves hSteady s m c k r hCall hOpen hEnd hSuccess
    have hSound : Sound cfg s := hStart.play moves
    cases m with
    | act a =>
        -- what comes from outside ends no call
        rcases phase?_act s a c with hSame | ⟨hNone, _⟩
        · rw [State.move, result?, hSame] at hEnd
          rw [result?, hEnd] at hOpen
          contradiction
        · rw [phase?, hCall] at hNone
          contradiction
    | turn =>
        obtain ⟨token, hResult, hHeld, hToken⟩ := token_of_success hSource hSound hCall hOpen hEnd hSuccess
        rw [State.move, hHeld, clock_turn]
        rcases hToken with ⟨expiry, hStored, hFresh⟩ | hIncoming
        · exact ⟨token, expiry, hResult, hStored, .inl hFresh⟩
        · obtain ⟨a, g, expiry, h⟩ := granted_of_incoming hStart hSteady hIncoming rfl
          refine ⟨token, expiry, hResult, h.held, ?_⟩
          by_cases hShort : g.seconds * 1000000 ≤ cfg.margin.micros
          · exact .inr ⟨a, g, h.taken, h.now, h.grant, h.token_eq, h.expires, hShort⟩
          · left
            have hMicros := Instant.ofMicros?_eq_some.mp h.expires
            rw [h.now] at hMicros
            change s.clock.micros < _
            have hMicros' : expiry.micros = s.clock.micros + g.seconds * 1000000 := hMicros
            omega
  · intro steps actions n
    obtain ⟨moves, hSteady, hMoves⟩ := Steady.of_run (s := first) cfg rfl steps
    have hSettled : (first.play cfg moves).ready = [] := hMoves ▸ run_ready first rfl steps
    refine ⟨_, (hSteady.acts hSettled actions).turns n, ?_⟩
    rw [List.append_assoc, play_append, hMoves, play_append, ← acts_eq_play]

/-- A token that is granted for 30 seconds is handed out although the margin is a minute. -/
theorem short_lived_token_is_current :
    let cfg : Config := { source := .refreshable ⟨"R", "id", "s"⟩, url := Grant.defaultUrl, margin := .minute }
    let body := (Utf8.encode "\x7b\"access_token\":\"t\",\"expires_in\":30\x7d").toOption.getD []
    let first := start ⟨1704110400000000, by decide, by decide⟩ {} [.response { status := 200, body }]
    let moves : List Move := [.act (.call .token), .turn, .turn, .turn, .turn]
    let s := (first.play cfg moves).turn cfg
    s.result? 0 = some (.token "t") ∧ s.held.token = some ("t" : Text) := by
  intro cfg body first moves s
  have hSteady : first.Steady cfg moves := (Steady.nil.acts rfl [.call .token]).turns 4
  have hCall : (first.play cfg moves).calls[0]? = some ⟨.token, .delivered (.token "t"), false⟩ := by
    dsimp only [cfg, body, first, moves]
    decide +kernel
  have hOpen : (first.play cfg moves).result? 0 = none := by
    rw [result?, phase?, hCall]
    rfl
  have hEnd : s.result? 0 = some (.token "t") := by
    dsimp only [cfg, body, first, moves, s]
    decide +kernel
  obtain ⟨token, expiry, hToken, hHeld, _⟩ := (successful_call_has_current_token cfg ⟨"R", "id", "s"⟩ rfl
    _ _ _).1 moves hSteady .turn 0 _ _ hCall hOpen hEnd trivial
  refine ⟨hEnd, ?_⟩
  rw [State.move] at hHeld
  rw [hHeld]
  exact congrArg some (Result.token.inj hToken).symm

end State

end Bearer.Cache
