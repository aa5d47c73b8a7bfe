import Bearer.Proofs.Cache.Schedule

/-! A turn performs one task. A call touches the round trips only by beginning a new one; a round trip sends its
request, gives it up because it can not be written, or takes an answer. -/

namespace Bearer.Cache

/-- A reply as it reaches the cache, at the instant at which it does. -/
structure Answer where
  now : Instant
  reply : Reply

namespace State

variable (cfg : Config) {s s' : State}

/-- Whether the next step of a round trip takes a reply. -/
def takesReply (cfg : Config) (t : TripId) (s : State) : Bool :=
  match cfg.source, s.trips[t]? with
  | .refreshable key, some .starting => !cfg.gated.waits t && (refreshRequest cfg.url key).isOk
  | .refreshable _, some .released => true
  | _, _ => false

/-- The answer that the step of a round trip takes. -/
def tripAnswer? (cfg : Config) (t : TripId) (s : State) : Option Answer :=
  if s.takesReply cfg t then some ⟨s.clock, (takeReply s.replies).1⟩ else none

/-- The answer that a move takes. -/
def answer? (cfg : Config) (s : State) : Move → Option Answer
  | .act _ => none
  | .turn =>
    match s.ready with
    | .trip t :: _ => s.tripAnswer? cfg t
    | _ => none

/-- An answer is taken by the step of a round trip. -/
theorem answer?_eq_some {cfg : Config} {a : Answer} (hAnswer : s.answer? cfg .turn = some a) :
    ∃ t rest, s.ready = .trip t :: rest ∧ s.takesReply cfg t = true ∧
      a = ⟨s.clock, (takeReply s.replies).1⟩ := by
  rw [answer?] at hAnswer
  split at hAnswer
  · next t rest hReady =>
      rw [tripAnswer?] at hAnswer
      split at hAnswer
      · next hTakes => exact ⟨t, rest, hReady, hTakes, (Option.some.inj hAnswer).symm⟩
      · contradiction
  · contradiction

/-- The answers that a schedule takes, in order. -/
def answers (cfg : Config) (s : State) : List Move → List Answer
  | [] => []
  | m :: moves => (s.answer? cfg m).toList ++ (s.move cfg m).answers cfg moves

theorem answers_append (s : State) (first second : List Move) :
    s.answers cfg (first ++ second) = s.answers cfg first ++ (s.play cfg first).answers cfg second := by
  induction first generalizing s with
  | nil => rfl
  | cons m first ih => rw [List.cons_append, answers, answers, ih, List.append_assoc, play_cons]

/-- What is true of every answer is true at every move that takes one. -/
theorem always_of_answers {cfg : Config} {P : Answer → Prop} {moves : List Move}
    (h : ∀ a ∈ s.answers cfg moves, P a) :
    s.Always cfg (fun u m => ∀ a, u.answer? cfg m = some a → P a) moves := by
  induction moves generalizing s with
  | nil => trivial
  | cons m moves ih =>
      constructor
      · intro a hAnswer
        exact h a (List.mem_append_left _ (Option.mem_toList.mpr hAnswer))
      · exact ih fun a ha => h a (List.mem_append_right _ ha)

/-- The same clock, replies and held token. -/
structure SameStore (s s' : State) : Prop where
  clock : s'.clock = s.clock
  replies : s'.replies = s.replies
  held : s'.held = s.held

theorem SameStore.trans {s'' : State} (h : SameStore s s') (h' : SameStore s' s'') : SameStore s s'' :=
  ⟨h'.clock.trans h.clock, h'.replies.trans h.replies, h'.held.trans h.held⟩

/-- What the step of a call does to the round trips: nothing, or it begins one because there is none
to join. -/
inductive CallEffect (s s' : State) : Prop where
  | quiet (hTrips : s'.trips = s.trips)
  | begun (hJoin : s.dropFinished.pending = none) (hTrips : s'.trips = s.trips ++ [.starting])

theorem dropFinished_frame (s : State) :
    SameStore s s.dropFinished ∧ s.dropFinished.trips = s.trips := by
  rw [dropFinished_eq]
  exact ⟨⟨rfl, rfl, rfl⟩, rfl⟩

theorem pending_dropFinished (s : State) :
    s.dropFinished.pending = s.pending.filter fun t => !s.isFinished t := by rw [dropFinished_eq]

theorem awaitTrip_effect (c : CallId) (s : State) : SameStore s (s.awaitTrip c) ∧
    ((s.awaitTrip c).trips = s.trips ∨
      s.pending = none ∧ (s.awaitTrip c).trips = s.trips ++ [.starting]) := by
  unfold awaitTrip
  split
  · exact ⟨⟨rfl, rfl, rfl⟩, .inl rfl⟩
  · next hPending => exact ⟨⟨rfl, rfl, rfl⟩, .inr ⟨hPending, rfl⟩⟩

theorem enter_effect (c : CallId) (call : Call) (s : State) :
    SameStore s (s.enter cfg c call) ∧ CallEffect s (s.enter cfg c call) := by
  unfold enter
  generalize hTaken : { s with lock := s.lock.take c }.observe [.acquired c] = taken
  obtain ⟨hDrop, hDropTrips⟩ := dropFinished_frame taken
  have hStore : SameStore s taken.dropFinished := by
    refine SameStore.trans ?_ hDrop
    rw [← hTaken]
    exact ⟨rfl, rfl, rfl⟩
  have hTrips : taken.dropFinished.trips = s.trips := by
    rw [hDropTrips, ← hTaken]
    rfl
  have hJoin : taken.dropFinished.pending = s.dropFinished.pending := by
    rw [pending_dropFinished, pending_dropFinished, ← hTaken]
    rfl
  dsimp only
  split
  · exact ⟨hStore.trans ⟨rfl, rfl, rfl⟩, .quiet hTrips⟩
  · exact ⟨hStore.trans ⟨rfl, rfl, rfl⟩, .quiet hTrips⟩
  · obtain ⟨hAwait, hTrips' | ⟨hPending, hTrips'⟩⟩ := awaitTrip_effect c taken.dropFinished
    · exact ⟨hStore.trans hAwait, .quiet (hTrips'.trans hTrips)⟩
    · rw [hTrips] at hTrips'
      exact ⟨hStore.trans hAwait, .begun (hJoin ▸ hPending) hTrips'⟩

theorem startCall_effect (c : CallId) (k : Caller) (s : State) :
    SameStore s (s.startCall cfg c k) ∧ CallEffect s (s.startCall cfg c k) := by
  unfold startCall
  split
  · exact ⟨⟨rfl, rfl, rfl⟩, .quiet rfl⟩
  · split
    · exact ⟨⟨rfl, rfl, rfl⟩, .quiet rfl⟩
    · split
      · exact enter_effect cfg c k.call s
      · exact ⟨⟨rfl, rfl, rfl⟩, .quiet rfl⟩

theorem resumeQueued_effect (c : CallId) (k : Caller) (s : State) :
    SameStore s (s.resumeQueued cfg c k) ∧ CallEffect s (s.resumeQueued cfg c k) := by
  unfold resumeQueued
  dsimp only
  split
  · split <;> exact ⟨⟨rfl, rfl, rfl⟩, .quiet rfl⟩
  · obtain ⟨hStore, hEffect⟩ := enter_effect cfg c k.call { s with lock := s.lock.leave c }
    refine ⟨⟨hStore.clock, hStore.replies, hStore.held⟩, ?_⟩
    cases hEffect with
    | quiet hTrips => exact .quiet hTrips
    | begun hJoin hTrips =>
        refine .begun ?_ hTrips
        rw [pending_dropFinished] at hJoin ⊢
        exact hJoin

theorem stepCall_effect (c : CallId) (s : State) :
    SameStore s (s.stepCall cfg c) ∧ CallEffect s (s.stepCall cfg c) := by
  unfold stepCall
  split
  · exact ⟨⟨rfl, rfl, rfl⟩, .quiet rfl⟩
  · next k _ =>
      split
      · exact startCall_effect cfg c k s
      · exact resumeQueued_effect cfg c k s
      · split <;> exact ⟨⟨rfl, rfl, rfl⟩, .quiet rfl⟩
      · exact ⟨⟨rfl, rfl, rfl⟩, .quiet rfl⟩
      · exact ⟨⟨rfl, rfl, rfl⟩, .quiet rfl⟩

/-- What a turn does to the round trips and the store, together with the answer that it takes. -/
inductive TurnEffect (cfg : Config) (s s' : State) : Option Answer → Prop where
  | quiet (hStore : SameStore s s') (hTrips : s'.trips = s.trips) : TurnEffect cfg s s' none
  | begun (hStore : SameStore s s') (hJoin : s.dropFinished.pending = none)
      (hTrips : s'.trips = s.trips ++ [.starting]) : TurnEffect cfg s s' none
  | sent (t : TripId) (hStore : SameStore s s') (hOld : s.trips[t]? = some .starting)
      (hTrips : s'.trips = s.trips.set t .sent) : TurnEffect cfg s s' none
  | refused (t : TripId) (key : RefreshKey) (fault : EncodeFault)
      (hSource : cfg.source = .refreshable key)
      (hRequest : refreshRequest cfg.url key = .error fault)
      (hStore : SameStore s s') (hOld : s.trips[t]? = some .starting)
      (hTrips : s'.trips = s.trips.set t (.finished (.failed (.notEncodable fault)))) :
      TurnEffect cfg s s' none
  | answered (t : TripId) (key : RefreshKey) (old : Trip) (answer : Answer)
      (hSource : cfg.source = .refreshable key)
      (hNow : answer.now = s.clock) (hReply : answer.reply = (takeReply s.replies).1)
      (hOld : s.trips[t]? = some old) (hOpen : old.isFinished = false)
      (hClock : s'.clock = s.clock) (hReplies : s'.replies = (takeReply s.replies).2)
      (hHeld : s'.held = (settlement cfg.nesting cfg.margin key answer.now s.held answer.reply).held)
      (hTrips : s'.trips = s.trips.set t
        (.finished (settlement cfg.nesting cfg.margin key answer.now s.held answer.reply).outcome)) :
      TurnEffect cfg s s' (some answer)

theorem answerTrip_frame (key : RefreshKey) (t : TripId) (s : State) :
    let result := settlement cfg.nesting cfg.margin key s.clock s.held (takeReply s.replies).1
    (s.answerTrip cfg key t).clock = s.clock ∧
      (s.answerTrip cfg key t).replies = (takeReply s.replies).2 ∧
      (s.answerTrip cfg key t).held = result.held ∧
      (s.answerTrip cfg key t).trips = s.trips.set t (.finished result.outcome) :=
  ⟨rfl, rfl, rfl, rfl⟩

/-- The tasks that are left play no part in what the step of a round trip does. -/
theorem TurnEffect.of_pop {cfg : Config} (rest : List Task) {answer : Option Answer}
    (h : TurnEffect cfg { s with ready := rest } s' answer) : TurnEffect cfg s s' answer := by
  cases h with
  | quiet hStore hTrips => exact .quiet ⟨hStore.clock, hStore.replies, hStore.held⟩ hTrips
  | begun hStore hJoin hTrips =>
      refine .begun ⟨hStore.clock, hStore.replies, hStore.held⟩ ?_ hTrips
      rw [pending_dropFinished] at hJoin ⊢
      exact hJoin
  | sent t hStore hOld hTrips =>
      exact .sent t ⟨hStore.clock, hStore.replies, hStore.held⟩ hOld hTrips
  | refused t key fault hSource hRequest hStore hOld hTrips =>
      exact .refused t key fault hSource hRequest ⟨hStore.clock, hStore.replies, hStore.held⟩ hOld hTrips
  | answered t key old answer hSource hNow hReply hOld hOpen hClock hReplies hHeld hTrips =>
      exact .answered t key old answer hSource hNow hReply hOld hOpen hClock hReplies hHeld hTrips

theorem stepTrip_effect (t : TripId) (s : State) :
    TurnEffect cfg s (s.stepTrip cfg t) (s.tripAnswer? cfg t) := by
  unfold stepTrip tripAnswer?
  split
  · next key hSource hOld =>
      have hTakes : s.takesReply cfg t = (!cfg.gated.waits t && (refreshRequest cfg.url key).isOk) := by
        simp only [takesReply, hSource, hOld]
      rw [hTakes]
      unfold startTrip
      split
      · next fault hRequest =>
          rw [hRequest, Except.isOk, Except.toBool, Bool.and_false, if_neg Bool.false_ne_true]
          refine .refused t key fault hSource hRequest ?_ hOld ?_
          · exact ⟨rfl, rfl, rfl⟩
          · rfl
      · next request hRequest =>
          rw [hRequest, Except.isOk, Except.toBool, Bool.and_true]
          cases cfg.gated.waits t with
          | true =>
              refine .sent t ?_ hOld ?_
              · exact ⟨rfl, rfl, rfl⟩
              · rfl
          | false =>
              obtain ⟨hClock, hReplies, hHeld, hTrips⟩ := answerTrip_frame cfg key t
                ((s.observe [.note (.started key.clientId)]).observe [.request request])
              exact .answered t key .starting _ hSource rfl rfl hOld rfl hClock hReplies hHeld hTrips
  · next key hSource hOld =>
      have hTakes : s.takesReply cfg t = true := by simp only [takesReply, hSource, hOld]
      rw [if_pos hTakes]
      obtain ⟨hClock, hReplies, hHeld, hTrips⟩ := answerTrip_frame cfg key t s
      exact .answered t key .released _ hSource rfl rfl hOld rfl hClock hReplies hHeld hTrips
  · next hSource hOther =>
      have hTakes : s.takesReply cfg t = false := by
        unfold takesReply
        split
        · next key hKey hOld => exact absurd hOld (hSource key hKey)
        · next key hKey hOld => exact absurd hOld (hOther key hKey)
        · rfl
      rw [hTakes, if_neg Bool.false_ne_true]
      exact .quiet ⟨rfl, rfl, rfl⟩ rfl

/-- What one turn can do. -/
theorem turn_effect (s : State) : TurnEffect cfg s (s.turn cfg) (s.answer? cfg .turn) := by
  unfold turn
  split
  · next hReady =>
      simp only [answer?, hReady]
      exact .quiet ⟨rfl, rfl, rfl⟩ rfl
  · next task rest hReady =>
      cases task with
      | call c =>
          simp only [answer?, hReady]
          obtain ⟨hStore, hEffect⟩ := stepCall_effect cfg c { s with ready := rest }
          refine TurnEffect.of_pop rest ?_
          cases hEffect with
          | quiet hTrips => exact .quiet hStore hTrips
          | begun hJoin hTrips => exact .begun hStore hJoin hTrips
      | trip t =>
          simp only [answer?, hReady]
          exact TurnEffect.of_pop rest (stepTrip_effect cfg t { s with ready := rest })
      | retire t =>
          simp only [answer?, hReady, perform, retire]
          split <;> exact .quiet ⟨rfl, rfl, rfl⟩ rfl
      | deliver t c =>
          simp only [answer?, hReady, perform]
          unfold deliver
          split
          · split <;> exact .quiet ⟨rfl, rfl, rfl⟩ rfl
          · exact .quiet ⟨rfl, rfl, rfl⟩ rfl

/-- No time passes while a task is performed. -/
theorem clock_turn (s : State) : (s.turn cfg).clock = s.clock := by
  have hEffect := turn_effect cfg s
  generalize s.answer? cfg .turn = answer at hEffect
  cases hEffect with
  | quiet hStore _ => exact hStore.clock
  | begun hStore _ _ => exact hStore.clock
  | sent _ hStore _ _ => exact hStore.clock
  | refused _ _ _ _ _ hStore _ _ => exact hStore.clock
  | answered _ _ _ _ _ _ _ _ _ hClock _ _ _ => exact hClock

theorem cancel_frame (c : CallId) (s : State) :
    SameStore s (s.cancel c) ∧ (s.cancel c).trips = s.trips := by
  unfold cancel
  split
  · exact ⟨⟨rfl, rfl, rfl⟩, rfl⟩
  · dsimp only
    split
    · exact ⟨⟨rfl, rfl, rfl⟩, rfl⟩
    · split <;> exact ⟨⟨rfl, rfl, rfl⟩, rfl⟩
    · split <;> exact ⟨⟨rfl, rfl, rfl⟩, rfl⟩
    · exact ⟨⟨rfl, rfl, rfl⟩, rfl⟩
    · exact ⟨⟨rfl, rfl, rfl⟩, rfl⟩

/-- The request that is released is one that waits for its answer. -/
theorem release_trips (s : State) : s.release.trips = s.trips ∨
    ∃ t, s.trips[t]? = some .sent ∧ s.release.trips = s.trips.set t .released := by
  rcases release_cases s with ⟨hSame, _⟩ | ⟨t, hSent, hRelease⟩
  · exact .inl (congrArg State.trips hSame)
  · exact .inr ⟨t, hSent, congrArg State.trips hRelease⟩

theorem release_held (s : State) : s.release.held = s.held := by
  unfold release
  split <;> rfl

/-- What comes from outside leaves the held token alone, and touches the round trips only by letting
one be answered. -/
theorem act_effect (s : State) (a : Action) : (s.act a).held = s.held ∧
    ((s.act a).trips = s.trips ∨
      ∃ t, s.trips[t]? = some .sent ∧ (s.act a).trips = s.trips.set t .released) := by
  cases a with
  | call call => exact ⟨rfl, .inl rfl⟩
  | cancel c =>
      obtain ⟨hStore, hTrips⟩ := cancel_frame c s
      exact ⟨hStore.held, .inl hTrips⟩
  | advance micros =>
      obtain ⟨clock, hAct⟩ := act_advance s micros
      rw [hAct]
      exact ⟨rfl, .inl rfl⟩
  | supply replies => exact ⟨rfl, .inl rfl⟩
  | release => exact ⟨release_held s, release_trips s⟩
  | rest => exact ⟨rfl, .inl rfl⟩

/-- How a move can end a round trip: its request can not be written, or an answer is taken. -/
inductive Ends (s : State) (m : Move) : Outcome → Prop where
  | refused (key : RefreshKey) (fault : EncodeFault) (hSource : cfg.source = .refreshable key)
      (hRequest : refreshRequest cfg.url key = .error fault) (hAnswer : s.answer? cfg m = none) :
      Ends s m (.failed (.notEncodable fault))
  | answered (key : RefreshKey) (a : Answer) (hSource : cfg.source = .refreshable key)
      (hAnswer : s.answer? cfg m = some a) :
      Ends s m (settlement cfg.nesting cfg.margin key a.now s.held a.reply).outcome

/-- A round trip under way. -/
def UnderWay (s : State) (t : TripId) : Prop :=
  ∃ trip, s.trips[t]? = some trip ∧ trip.isFinished = false

/-- What a move does to one round trip: nothing, it begins it, lets it go on, or ends it. -/
inductive TripEffect (s : State) (m : Move) (t : TripId) (s' : State) : Prop where
  | quiet (hTrip : s'.trips[t]? = s.trips[t]?)
  | begun (hOld : s.trips[t]? = none) (hNew : s'.trips[t]? = some .starting)
  | gone_on (hOld : s.UnderWay t) (hNew : s'.UnderWay t)
  | ended (o : Outcome) (hOld : s.UnderWay t) (hNew : s'.trips[t]? = some (.finished o))
      (hEnds : s.Ends cfg m o)

theorem getElem?_set_cases {trips : List Trip} {t u : TripId} (new : Trip) {old : Trip}
    (hOld : trips[u]? = some old) :
    (trips.set u new)[t]? = trips[t]? ∨ u = t ∧ (trips.set u new)[t]? = some new := by
  by_cases hut : u = t
  · subst hut
    exact .inr ⟨rfl, List.getElem?_set_self (List.getElem?_eq_some_iff.mp hOld).1⟩
  · exact .inl (List.getElem?_set_ne hut)

/-- What one move can do to one round trip. -/
theorem trip_effect (s : State) (m : Move) (t : TripId) : s.TripEffect cfg m t (s.move cfg m) := by
  have hGoneOn {s' : State} {u : TripId} {old : Trip} (new : Trip) (hNew : new.isFinished = false)
      (hOld : s.trips[u]? = some old) (hOpen : old.isFinished = false)
      (hTrips : s'.trips = s.trips.set u new) : s.TripEffect cfg m t s' := by
    rcases getElem?_set_cases (t := t) new hOld with hSame | ⟨rfl, hSet⟩
    · exact .quiet (hTrips ▸ hSame)
    · exact .gone_on ⟨old, hOld, hOpen⟩ ⟨new, hTrips ▸ hSet, hNew⟩
  have hEnded {s' : State} {u : TripId} {old : Trip} (o : Outcome) (hEnds : s.Ends cfg m o)
      (hOld : s.trips[u]? = some old) (hOpen : old.isFinished = false)
      (hTrips : s'.trips = s.trips.set u (.finished o)) : s.TripEffect cfg m t s' := by
    rcases getElem?_set_cases (t := t) (.finished o) hOld with hSame | ⟨rfl, hSet⟩
    · exact .quiet (hTrips ▸ hSame)
    · exact .ended o ⟨old, hOld, hOpen⟩ (hTrips ▸ hSet) hEnds
  cases m with
  | act a =>
      obtain ⟨_, hTrips | ⟨u, hSent, hTrips⟩⟩ := act_effect s a
      · exact .quiet (congrArg (·[t]?) hTrips)
      · exact hGoneOn .released rfl hSent rfl hTrips
  | turn =>
      have hEffect := turn_effect cfg s
      generalize hTook : s.answer? cfg .turn = answer at hEffect
      cases hEffect with
      | quiet _ hTrips => exact .quiet (congrArg (·[t]?) hTrips)
      | begun _ _ hTrips =>
          rw [State.move]
          by_cases ht : t < s.trips.length
          · exact .quiet (by rw [hTrips, List.getElem?_append_left ht])
          · have hNone : s.trips[t]? = none := List.getElem?_eq_none (Nat.le_of_not_lt ht)
            by_cases hLast : t = s.trips.length
            · exact .begun hNone (by rw [hTrips, hLast]; simp)
            · have hAfter : s.trips.length < t := Nat.lt_of_le_of_ne (Nat.le_of_not_lt ht) (Ne.symm hLast)
              refine .quiet ?_
              rw [hTrips, hNone, List.getElem?_eq_none]
              rw [List.length_append, List.length_singleton]
              exact hAfter
      | sent u _ hOld hTrips => exact hGoneOn .sent rfl hOld rfl hTrips
      | refused u key fault hSource hRequest _ hOld hTrips =>
          exact hEnded _ (.refused key fault hSource hRequest hTook) hOld rfl hTrips
      | answered u key old a hSource _ _ hOld hOpen _ _ _ hTrips =>
          exact hEnded _ (.answered key a hSource hTook) hOld hOpen hTrips

variable {cfg} {t : TripId} {o : Outcome}

/-- An answer reaches a round trip that was under way. -/
theorem underWay_of_answer {m : Move} {a : Answer} (hAnswer : s.answer? cfg m = some a) :
    a.now = s.clock ∧ ∃ t, s.UnderWay t := by
  cases m with
  | act a => contradiction
  | turn =>
      have hEffect := turn_effect cfg s
      rw [hAnswer] at hEffect
      cases hEffect with
      | answered t _ old _ _ hNow _ hOld hOpen _ _ _ _ => exact ⟨hNow, t, old, hOld, hOpen⟩

theorem UnderWay.not_finished (h : s.UnderWay t) : s.trips[t]? ≠ some (.finished o) := by
  obtain ⟨trip, hTrip, hOpen⟩ := h
  intro hFinished
  rw [hTrip, Option.some.injEq] at hFinished
  subst hFinished
  contradiction

/-- A round trip that has finished stays as it is. -/
theorem finished_move (m : Move) (hTrip : s.trips[t]? = some (.finished o)) :
    (s.move cfg m).trips[t]? = some (.finished o) := by
  cases trip_effect cfg s m t with
  | quiet hSame => exact hSame.trans hTrip
  | begun hOld _ => rw [hTrip] at hOld; contradiction
  | gone_on hOld _ => exact absurd hTrip hOld.not_finished
  | ended _ hOld _ _ => exact absurd hTrip hOld.not_finished

theorem finished_play (moves : List Move) (hTrip : s.trips[t]? = some (.finished o)) :
    (s.play cfg moves).trips[t]? = some (.finished o) :=
  play_invariant (P := fun s => s.trips[t]? = some (.finished o)) hTrip
    (fun _ m h => finished_move m h) moves

/-- A move ends a round trip under way. -/
structure Finishes (cfg : Config) (t : TripId) (o : Outcome) (s : State) (m : Move) : Prop where
  opened : s.UnderWay t
  finished : (s.move cfg m).trips[t]? = some (.finished o)
  ends : s.Ends cfg m o

/-- A round trip that has just finished was ended by the move. -/
theorem finishes_of_finished {m : Move} (hNew : (s.move cfg m).trips[t]? = some (.finished o))
    (hOld : s.trips[t]? ≠ some (.finished o)) : Finishes cfg t o s m := by
  cases trip_effect cfg s m t with
  | quiet hSame => exact absurd (hSame.symm.trans hNew) hOld
  | begun _ hStarting => rw [hStarting] at hNew; cases hNew
  | gone_on _ hOpen => exact absurd hNew hOpen.not_finished
  | ended o' hOpen hEnd hEnds =>
      rw [hNew, Option.some.injEq, Trip.finished.injEq] at hEnd
      exact ⟨hOpen, hNew, hEnd ▸ hEnds⟩

theorem ends_of_finished {m : Move} (hNew : (s.move cfg m).trips[t]? = some (.finished o))
    (hOld : s.trips[t]? ≠ some (.finished o)) : s.Ends cfg m o := (finishes_of_finished hNew hOld).ends

/-- A round trip that has finished after a schedule was ended by one of its moves, if it had not finished
before. -/
theorem finishes_of_play {moves : List Move} (hEnd : (s.play cfg moves).trips[t]? = some (.finished o)) :
    s.trips[t]? = some (.finished o) ∨ s.Sometime cfg (Finishes cfg t o) moves := by
  induction moves generalizing s with
  | nil => exact .inl hEnd
  | cons m moves ih =>
      rcases ih hEnd with hNext | hLater
      · by_cases hOld : s.trips[t]? = some (.finished o)
        · exact .inl hOld
        · exact .inr (.inl (finishes_of_finished hNext hOld))
      · exact .inr (.inr hLater)

/-- A move takes the answer of a round trip under way, which ends with an outcome. -/
structure Takes (cfg : Config) (t : TripId) (a : Answer) (o : Outcome) (s : State) (m : Move) : Prop where
  opened : s.UnderWay t
  answer : s.answer? cfg m = some a
  finished : (s.move cfg m).trips[t]? = some (.finished o)

end State

end Bearer.Cache
