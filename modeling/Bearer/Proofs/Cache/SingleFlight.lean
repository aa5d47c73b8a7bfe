import Bearer.Proofs.Cache.Turn

/-! A round trip is under way from the moment it is begun until it has finished. At most one is, and while one is it
is the one that callers join. -/

namespace Bearer.Cache

/-- A property that singles out one place of a list counts at most one element. -/
theorem countP_le_one {α : Type} (p : α → Bool) {xs : List α}
    (hUnique : ∀ (i j : Nat) (x y : α), xs[i]? = some x → xs[j]? = some y →
      p x = true → p y = true → i = j) :
    xs.countP p ≤ 1 := by
  induction xs with
  | nil => simp
  | cons x xs ih =>
      have hRest := ih fun i j y z hy hz hpy hpz =>
        Nat.succ.inj (hUnique (i + 1) (j + 1) y z (by simpa using hy) (by simpa using hz) hpy hpz)
      by_cases hx : p x = true
      · have hNone : xs.countP p = 0 := by
          rw [List.countP_eq_zero]
          intro y hy hpy
          obtain ⟨i, hi⟩ := List.mem_iff_getElem?.mp hy
          have := hUnique 0 (i + 1) x y rfl (by simpa using hi) hx hpy
          omega
        have hCount : (x :: xs).countP p = xs.countP p + 1 := List.countP_cons_of_pos hx
        omega
      · rw [List.countP_cons_of_neg hx]
        exact hRest

namespace State

variable {cfg : Config} {s s' : State} {c : CallId} {t : TripId}

/-- A round trip that has not finished is the one to join, and a round trip that is about to stop
being joined has finished. -/
structure SingleFlight (s : State) : Prop where
  pending_of_unfinished : ∀ t trip, s.trips[t]? = some trip → trip.isFinished = false →
    s.pending = some t
  finished_of_retire : ∀ t, .retire t ∈ s.ready → s.isFinished t = true

namespace SingleFlight

theorem start (clock : Instant) (held : HeldToken) (replies : List Reply) :
    SingleFlight (State.start clock held replies) where
  pending_of_unfinished := by simp [State.start]
  finished_of_retire := by simp [State.start]

/-- Only the round trips, the one to join and the tasks that end joining matter. -/
theorem of_same (h : SingleFlight s) (hTrips : s'.trips = s.trips) (hPending : s'.pending = s.pending)
    (hReady : ∀ t, .retire t ∈ s'.ready → .retire t ∈ s.ready) : SingleFlight s' where
  pending_of_unfinished t trip hTrip hOpen := by
    rw [hPending]
    exact h.pending_of_unfinished t trip (hTrips ▸ hTrip) hOpen
  finished_of_retire t ht := by
    rw [isFinished, hTrips]
    exact h.finished_of_retire t (hReady t ht)

/-- While no round trip can be joined, all have finished. -/
theorem all_finished (h : SingleFlight s) (hPending : s.pending = none) {trip : Trip}
    (hTrip : s.trips[t]? = some trip) : trip.isFinished = true := by
  cases hOpen : trip.isFinished with
  | true => rfl
  | false =>
      have hSome := h.pending_of_unfinished t trip hTrip hOpen
      rw [hPending] at hSome
      contradiction

theorem observe (h : SingleFlight s) (events : List Event) : SingleFlight (s.observe events) :=
  h.of_same rfl rfl fun _ ht => ht

theorem hand (h : SingleFlight s) (o : Outcome) : SingleFlight (s.hand c o) :=
  h.of_same rfl rfl fun _ ht => ht

theorem finish (h : SingleFlight s) (r : Result) : SingleFlight (s.finish c r) :=
  h.of_same rfl rfl fun _ ht => ht

theorem withLock (h : SingleFlight s) (l : Lock × Option CallId) : SingleFlight (s.withLock l) :=
  h.of_same rfl rfl fun t ht => by simpa [State.withLock, schedule] using ht

theorem finishHolder (h : SingleFlight s) (r : Result) : SingleFlight (s.finishHolder c r) :=
  (h.withLock s.lock.release).finish r

theorem dropFinished (h : SingleFlight s) : SingleFlight s.dropFinished := by
  rw [dropFinished_eq]
  refine ⟨?_, h.finished_of_retire⟩
  -- a round trip that is no longer joined has finished
  intro t trip hTrip hOpen
  have hTrip' : s.trips[t]? = some trip := hTrip
  change s.pending.filter (fun t => !s.isFinished t) = some t
  rw [h.pending_of_unfinished t trip hTrip hOpen, Option.filter_some]
  simp [isFinished, hTrip', hOpen]

theorem awaitTrip (h : SingleFlight s) (c : CallId) : SingleFlight (s.awaitTrip c) := by
  unfold State.awaitTrip
  split
  · exact h.of_same rfl rfl fun _ ht => ht
  · next hPending =>
      constructor
      · intro t trip hTrip hOpen
        change (s.trips ++ [Trip.starting])[t]? = some trip at hTrip
        by_cases ht : t < s.trips.length
        · rw [List.getElem?_append_left ht] at hTrip
          rw [h.all_finished hPending hTrip] at hOpen
          contradiction
        · have hLast : t = s.trips.length := by
            have hLength := (List.getElem?_eq_some_iff.mp hTrip).1
            rw [List.length_append, List.length_singleton] at hLength
            exact Nat.le_antisymm (Nat.le_of_lt_succ hLength) (Nat.le_of_not_lt ht)
          rw [hLast]
          rfl
      · intro t ht
        have hOld : .retire t ∈ s.ready := by
          simpa [State.setPhase, schedule] using ht
        have hFinished := h.finished_of_retire t hOld
        change ((s.trips ++ [Trip.starting])[t]?.map (·.isFinished)).getD false = true
        cases hTrip : s.trips[t]? with
        | none => simp [isFinished, hTrip] at hFinished
        | some trip =>
            rw [List.getElem?_append_left (List.getElem?_eq_some_iff.mp hTrip).1, hTrip]
            simpa [isFinished, hTrip] using hFinished

theorem enter (h : SingleFlight s) (c : CallId) (call : Call) : SingleFlight (s.enter cfg c call) := by
  have hTaken : SingleFlight ({ s with lock := s.lock.take c }.observe [.acquired c]) :=
    h.of_same rfl rfl fun _ ht => ht
  unfold State.enter
  dsimp only
  split
  · exact hTaken.dropFinished.finishHolder _
  · exact ((hTaken.dropFinished.observe _).hand _).finishHolder _
  · exact hTaken.dropFinished.awaitTrip c

theorem startCall (h : SingleFlight s) (k : Caller) : SingleFlight (s.startCall cfg c k) := by
  unfold State.startCall
  split
  · exact h.finish _
  · split
    · exact (h.hand _).finish _
    · split
      · exact h.enter c k.call
      · exact h.of_same rfl rfl fun _ ht => ht

theorem resumeQueued (h : SingleFlight s) (k : Caller) : SingleFlight (s.resumeQueued cfg c k) := by
  have hLeft : SingleFlight { s with lock := s.lock.leave c } := h.of_same rfl rfl fun _ ht => ht
  unfold State.resumeQueued
  dsimp only
  split
  · split
    · exact (hLeft.withLock _).finish _
    · exact hLeft.finish _
  · exact hLeft.enter c k.call

theorem stepCall (h : SingleFlight s) (c : CallId) : SingleFlight (s.stepCall cfg c) := by
  unfold State.stepCall
  split
  · exact h
  · next k _ =>
      split
      · exact h.startCall k
      · exact h.resumeQueued k
      · split
        · exact h.finishHolder _
        · exact h
      · exact (h.hand _).finishHolder _
      · exact h

/-- A round trip under way may go on or finish. -/
theorem setTrip (h : SingleFlight s) {old : Trip} (hOld : s.trips[t]? = some old)
    (hOpen : old.isFinished = false) (new : Trip) : SingleFlight (s.setTrip t new) where
  pending_of_unfinished u trip hTrip hOpenTrip := by
    change (s.trips.set t new)[u]? = some trip at hTrip
    by_cases hut : t = u
    · exact hut ▸ h.pending_of_unfinished t old hOld hOpen
    · rw [List.getElem?_set_ne hut] at hTrip
      exact h.pending_of_unfinished u trip hTrip hOpenTrip
  finished_of_retire u hu := by
    have hFinished := h.finished_of_retire u hu
    have hut : t ≠ u := by
      rintro rfl
      simp [isFinished, hOld, hOpen] at hFinished
    change ((s.trips.set t new)[u]?.map (·.isFinished)).getD false = true
    rw [List.getElem?_set_ne hut]
    exact hFinished

theorem finishTrip (h : SingleFlight s) {old : Trip} (hOld : s.trips[t]? = some old)
    (hOpen : old.isFinished = false) (o : Outcome) : SingleFlight (s.finishTrip t o) := by
  have hSet := (h.setTrip hOld hOpen (.finished o)).observe [.arrived t o]
  refine ⟨hSet.pending_of_unfinished, ?_⟩
  intro u hu
  have hCases : u = t ∨ .retire u ∈ s.ready := by
    simpa [State.finishTrip, schedule, State.observe, State.setTrip, or_comm] using hu
  rcases hCases with rfl | hOldTask
  · have ht : u < s.trips.length := (List.getElem?_eq_some_iff.mp hOld).1
    change ((s.trips.set u (.finished o))[u]?.map (·.isFinished)).getD false = true
    rw [List.getElem?_set_self ht]
    rfl
  · exact hSet.finished_of_retire u hOldTask

theorem answerTrip (h : SingleFlight s) (key : RefreshKey) {old : Trip}
    (hOld : s.trips[t]? = some old) (hOpen : old.isFinished = false) :
    SingleFlight (s.answerTrip cfg key t) := by
  rw [answerTrip_eq]
  refine finishTrip ?_ (by exact hOld) hOpen _
  exact h.of_same rfl rfl fun _ ht => ht

theorem startTrip (h : SingleFlight s) (key : RefreshKey) (hTrip : s.trips[t]? = some .starting) :
    SingleFlight (s.startTrip cfg key t) := by
  unfold State.startTrip
  split
  · exact (h.observe _).finishTrip (by exact hTrip) rfl _
  · split
    · exact ((h.observe _).observe _).setTrip (by exact hTrip) rfl _
    · exact ((h.observe _).observe _).answerTrip key (by exact hTrip) rfl

theorem stepTrip (h : SingleFlight s) (t : TripId) : SingleFlight (s.stepTrip cfg t) := by
  unfold State.stepTrip
  split
  · next key _ hTrip => exact h.startTrip key hTrip
  · next key _ hTrip => exact h.answerTrip key hTrip rfl
  · exact h

theorem retire (h : SingleFlight s) (hFinished : s.isFinished t = true) :
    SingleFlight (s.retire t) := by
  unfold State.retire
  split
  · next hPending =>
      refine ⟨?_, h.finished_of_retire⟩
      intro u trip hTrip hOpen
      have hu := h.pending_of_unfinished u trip hTrip hOpen
      rw [hPending, Option.some.injEq] at hu
      subst hu
      have hTrip' : s.trips[t]? = some trip := hTrip
      simp [isFinished, hTrip', hOpen] at hFinished
  · exact h

theorem deliver (h : SingleFlight s) (t : TripId) (c : CallId) : SingleFlight (s.deliver t c) := by
  unfold State.deliver
  split
  · split
    · exact h.of_same rfl rfl fun u hu => by simpa [schedule, setPhase] using hu
    · exact h
  · exact h

theorem turn (h : SingleFlight s) : SingleFlight (s.turn cfg) := by
  unfold State.turn
  split
  · exact h
  · next task rest hReady =>
      have hRest : SingleFlight { s with ready := rest } :=
        h.of_same rfl rfl fun u hu => hReady ▸ List.mem_cons_of_mem task hu
      cases task with
      | call c => exact hRest.stepCall c
      | trip t => exact hRest.stepTrip t
      | retire t => exact hRest.retire (h.finished_of_retire t (hReady ▸ List.mem_cons_self))
      | deliver t c => exact hRest.deliver t c

theorem cancel (h : SingleFlight s) (c : CallId) : SingleFlight (s.cancel c) := by
  unfold State.cancel
  split
  · exact h
  · dsimp only
    split
    · exact h
    · split
      · exact h.of_same rfl rfl fun u hu => by simpa [schedule] using hu
      · exact h.of_same rfl rfl fun _ hu => hu
    · split
      · exact h.of_same rfl rfl fun _ hu => hu
      · exact h.of_same rfl rfl fun u hu => by simpa [schedule] using hu
    · exact h.of_same rfl rfl fun _ hu => hu
    · exact h.of_same rfl rfl fun _ hu => hu

theorem release (h : SingleFlight s) : SingleFlight s.release := by
  rcases release_cases s with ⟨hSame, _⟩ | ⟨t, hSent, hRelease⟩
  · rw [hSame]
    exact h
  · rw [hRelease]
    exact (h.setTrip hSent rfl .released).of_same rfl rfl fun u hu => by simpa [schedule] using hu

theorem act (h : SingleFlight s) (a : Action) : SingleFlight (s.act a) := by
  cases a with
  | call call => exact h.of_same rfl rfl fun u hu => by simpa [State.act, schedule] using hu
  | cancel c => exact h.cancel c
  | advance micros =>
      obtain ⟨clock, hAct⟩ := act_advance s micros
      rw [hAct]
      exact h.of_same rfl rfl fun _ hu => hu
  | supply replies => exact h.of_same rfl rfl fun _ hu => hu
  | release => exact h.release
  | rest => exact h

theorem move (h : SingleFlight s) (m : Move) : SingleFlight (s.move cfg m) := by
  cases m with
  | act a => exact h.act a
  | turn => exact h.turn

theorem play (h : SingleFlight s) (moves : List Move) : SingleFlight (s.play cfg moves) :=
  play_invariant h (fun _ m h => h.move m) moves

end SingleFlight

/-- While a round trip is under way, no move begins another. -/
theorem SingleFlight.trips_length (h : SingleFlight s) {trip : Trip} (hTrip : s.trips[t]? = some trip)
    (hOpen : trip.isFinished = false) (m : Move) : (s.move cfg m).trips.length = s.trips.length := by
  cases m with
  | act a =>
      obtain ⟨_, hTrips | ⟨u, _, hTrips⟩⟩ := act_effect s a
      · exact congrArg List.length hTrips
      · rw [State.move, hTrips]
        exact List.length_set
  | turn =>
      have hEffect := turn_effect cfg s
      generalize s.answer? cfg .turn = answer at hEffect
      rw [State.move]
      cases hEffect with
      | quiet _ hTrips => exact congrArg List.length hTrips
      | begun _ hJoin _ =>
          -- nothing could be joined, although the round trip under way could
          rw [pending_dropFinished, h.pending_of_unfinished t trip hTrip hOpen, Option.filter_some] at hJoin
          simp [isFinished, hTrip, hOpen] at hJoin
      | sent u _ _ hTrips => rw [hTrips, List.length_set]
      | refused u key fault _ _ _ _ hTrips => rw [hTrips, List.length_set]
      | answered u key old answer _ _ _ _ _ _ _ _ hTrips => rw [hTrips, List.length_set]

/-- Single flight. After any schedule of calls, cancellations, clock changes, answers of any kind and
turns, at most one round trip is under way; while one is, it is the one that callers join, and nothing
that can happen next begins another. -/
theorem single_flight (cfg : Config) (clock : Instant) (held : HeldToken) (replies : List Reply)
    (moves : List Move) :
    let s := (start clock held replies).play cfg moves
    (s.trips.countP fun trip => !trip.isFinished) ≤ 1 ∧
      ∀ t trip, s.trips[t]? = some trip → trip.isFinished = false →
        s.pending = some t ∧ ∀ m, (s.move cfg m).trips.length = s.trips.length := by
  intro s
  have h : SingleFlight s := (SingleFlight.start clock held replies).play moves
  constructor
  · apply countP_le_one
    intro i j x y hx hy hOpenX hOpenY
    have hi := h.pending_of_unfinished i x hx (by simpa using hOpenX)
    have hj := h.pending_of_unfinished j y hy (by simpa using hOpenY)
    exact Option.some.inj (hi.symm.trans hj)
  · intro t trip hTrip hOpen
    exact ⟨h.pending_of_unfinished t trip hTrip hOpen, h.trips_length hTrip hOpen⟩

end State

end Bearer.Cache
