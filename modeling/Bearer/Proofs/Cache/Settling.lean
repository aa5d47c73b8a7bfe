import Bearer.Proofs.Cache.Schedule

/-! Every turn lowers the weight of a state that has something left to do, so settling performs all of it: a settled
state has an empty queue of tasks. -/

namespace Bearer.Cache.State

variable (cfg : Config) {s : State} {c : CallId} {t : TripId} {k : Caller} {trip : Trip}

theorem sum_append {α : Type} (f : α → Nat) (xs ys : List α) :
    (xs ++ ys).foldr (fun x n => f x + n) 0 =
      xs.foldr (fun x n => f x + n) 0 + ys.foldr (fun x n => f x + n) 0 := by
  induction xs with
  | nil => simp
  | cons x xs ih =>
      simp only [List.cons_append, List.foldr_cons, ih]
      omega

theorem sum_modify {α : Type} (f : α → Nat) (g : α → α) {xs : List α} {i : Nat} {x : α}
    (hx : xs[i]? = some x) :
    (xs.modify i g).foldr (fun x n => f x + n) 0 + f x =
      xs.foldr (fun x n => f x + n) 0 + f (g x) := by
  induction xs generalizing i with
  | nil => simp at hx
  | cons y xs ih =>
      cases i with
      | zero =>
          simp only [List.getElem?_cons_zero, Option.some.injEq] at hx
          subst hx
          simp only [List.modify_zero_cons, List.foldr_cons]
          omega
      | succ i =>
          have hRest := ih (by simpa using hx)
          simp only [List.modify_succ_cons, List.foldr_cons]
          omega

theorem weight_schedule (tasks : List Task) (s : State) :
    (s.schedule tasks).weight = s.weight + tasks.length := by
  simp only [schedule, weight, List.length_append]
  omega

theorem weight_observe (events : List Event) (s : State) :
    (s.observe events).weight = s.weight := rfl

theorem weight_setPhase (p : Phase) (hCall : s.calls[c]? = some k) :
    (s.setPhase c p).weight + k.phase.weight = s.weight + p.weight := by
  have hSum := sum_modify (fun k : Caller => k.phase.weight) (fun k => { k with phase := p }) hCall
  simp only [setPhase, weight] at hSum ⊢
  omega

theorem weight_setTrip (new : Trip) (hTrip : s.trips[t]? = some trip) :
    (s.setTrip t new).weight + trip.weight = s.weight + new.weight := by
  have hSum := sum_modify Trip.weight (fun _ => new) hTrip
  rw [← List.set_eq_modify] at hSum
  simp only [setTrip, weight]
  omega

theorem weight_withLock (l : Lock × Option CallId) (s : State) :
    (s.withLock l).weight ≤ s.weight + 1 := by
  obtain ⟨lock, woken⟩ := l
  cases woken <;> simp [withLock, schedule, weight]
  omega

theorem weight_hand (o : Outcome) (s : State) : (s.hand c o).weight = s.weight := rfl

theorem weight_finish (r : Result) (hCall : s.calls[c]? = some k) :
    (s.finish c r).weight + k.phase.weight = s.weight := by
  rw [finish, weight_observe]
  exact weight_setPhase (.finished r) hCall

theorem weight_finishHolder (r : Result) (hCall : s.calls[c]? = some k) :
    (s.finishHolder c r).weight + k.phase.weight ≤ s.weight + 1 := by
  rw [finishHolder, weight_finish r (by exact hCall)]
  exact weight_withLock _ s

theorem weight_dropFinished (s : State) : s.dropFinished.weight = s.weight := by
  rw [dropFinished_eq]
  rfl

theorem calls_dropFinished (s : State) : s.dropFinished.calls = s.calls := by rw [dropFinished_eq]

theorem weight_awaitTrip (hCall : s.calls[c]? = some k) :
    (s.awaitTrip c).weight + k.phase.weight ≤ s.weight + 6 := by
  unfold awaitTrip
  split
  · next t _ =>
      rw [weight_setPhase (.waiting t) hCall]
      simp [Phase.weight]
  · rw [weight_setPhase (.waiting s.trips.length) (by exact hCall), weight_schedule]
    have hSum := sum_append Trip.weight s.trips [Trip.starting]
    simp only [weight, Phase.weight, Trip.weight, List.foldr_cons, List.foldr_nil,
      List.length_cons, List.length_nil] at hSum ⊢
    omega

theorem weight_enter (call : Call) (hCall : s.calls[c]? = some k) :
    (s.enter cfg c call).weight + k.phase.weight ≤ s.weight + 6 := by
  unfold enter
  generalize hTaken : ({ s with lock := s.lock.take c }.observe [.acquired c]).dropFinished = taken
  have hWeight : taken.weight = s.weight := by
    rw [← hTaken, weight_dropFinished]
    rfl
  have hTakenCall : taken.calls[c]? = some k := by
    rw [← hTaken, calls_dropFinished]
    exact hCall
  dsimp only
  split
  · have := weight_finishHolder (.failed .outOfRange) hTakenCall
    omega
  · have hNoted : (taken.observe [.note (.cached taken.held.expiresAt)]).calls[c]? = some k := hTakenCall
    have := weight_finishHolder (s := (taken.observe [.note (.cached taken.held.expiresAt)]).hand c
      (.token (taken.held.token.getD []))) (call.result c (taken.held.token.getD [])) hNoted
    rw [weight_hand, weight_observe] at this
    omega
  · have := weight_awaitTrip hTakenCall
    omega

theorem weight_startCall (hCall : s.calls[c]? = some k) (hPhase : k.phase = .starting) :
    (s.startCall cfg c k).weight ≤ s.weight := by
  have hOld : k.phase.weight = 8 := by rw [hPhase]; rfl
  unfold startCall
  split
  · have := weight_finish .cancelled hCall
    omega
  · split
    · next token _ =>
        have := weight_finish (s := s.hand c (.token token)) (k.call.result c token) hCall
        rw [weight_hand] at this
        omega
    · split
      · have := weight_enter cfg k.call hCall
        omega
      · have := weight_setPhase (s := { s with lock := s.lock.join c }) .queued hCall
        have hSame : State.weight { s with lock := s.lock.join c } = s.weight := rfl
        have hNew : Phase.queued.weight = 7 := rfl
        omega

theorem weight_resumeQueued (hCall : s.calls[c]? = some k) (hPhase : k.phase = .queued) :
    (s.resumeQueued cfg c k).weight ≤ s.weight := by
  have hOld : k.phase.weight = 7 := by rw [hPhase]; rfl
  unfold resumeQueued
  generalize hLeft : { s with lock := s.lock.leave c } = left
  have hWeight : left.weight = s.weight := by rw [← hLeft]; rfl
  have hLeftCall : left.calls[c]? = some k := by rw [← hLeft]; exact hCall
  dsimp only
  split
  · split
    · have hLock := weight_withLock left.lock.wakeFirst left
      have := weight_finish (s := left.withLock left.lock.wakeFirst) .cancelled hLeftCall
      omega
    · have := weight_finish .cancelled hLeftCall
      omega
  · have := weight_enter cfg k.call hLeftCall
    omega

theorem weight_stepCall (s : State) : (s.stepCall cfg c).weight ≤ s.weight := by
  unfold stepCall
  split
  · exact Nat.le_refl _
  · next k hCall =>
      split
      · next hPhase => exact weight_startCall cfg hCall hPhase
      · next hPhase => exact weight_resumeQueued cfg hCall hPhase
      · next t hPhase =>
          have hOld : k.phase.weight = 2 := by rw [hPhase]; rfl
          split
          · have := weight_finishHolder .cancelled hCall
            omega
          · exact Nat.le_refl _
      · next o hPhase =>
          have hOld : k.phase.weight = 1 := by rw [hPhase]; rfl
          generalize (if k.cancelRequested then Outcome.cancelled else o) = o'
          have := weight_finishHolder (s := s.hand c o') (resultOf c k.call o') hCall
          rw [weight_hand] at this
          dsimp only
          omega
      · exact Nat.le_refl _

theorem weight_finishTrip (o : Outcome) (hTrip : s.trips[t]? = some trip) :
    (s.finishTrip t o).weight + trip.weight ≤ s.weight + 2 := by
  have hSet := weight_setTrip (.finished o) hTrip
  rw [finishTrip, weight_schedule, weight_observe]
  have hFinished : (Trip.finished o).weight = 0 := rfl
  have hListener : ((s.listener? t).toList.map (Task.deliver t)).length ≤ 1 := by
    cases s.listener? t <;> simp
  simp only [List.length_cons]
  omega

theorem weight_answerTrip (key : RefreshKey) (hTrip : s.trips[t]? = some trip) :
    (s.answerTrip cfg key t).weight + trip.weight ≤ s.weight + 2 := by
  unfold answerTrip
  exact weight_finishTrip _ (by exact hTrip)

theorem weight_startTrip (key : RefreshKey) (hTrip : s.trips[t]? = some .starting) :
    (s.startTrip cfg key t).weight ≤ s.weight := by
  have hOld : Trip.starting.weight = 3 := rfl
  unfold startTrip
  dsimp only
  split
  · next fault _ =>
      have := weight_finishTrip (s := s.observe [.note (.started key.clientId)])
        (.failed (.notEncodable fault)) hTrip
      rw [weight_observe] at this
      omega
  · next request _ =>
      split
      · have := weight_setTrip (s := (s.observe [.note (.started key.clientId)]).observe
          [.request request]) .sent hTrip
        rw [weight_observe, weight_observe] at this
        have hNew : Trip.sent.weight = 3 := rfl
        omega
      · have := weight_answerTrip cfg (s := (s.observe [.note (.started key.clientId)]).observe
          [.request request]) key hTrip
        rw [weight_observe, weight_observe] at this
        omega

theorem weight_stepTrip (s : State) : (s.stepTrip cfg t).weight ≤ s.weight := by
  unfold stepTrip
  split
  · next key _ hTrip => exact weight_startTrip cfg key hTrip
  · next key _ hTrip =>
      have hOld : Trip.released.weight = 2 := rfl
      have := weight_answerTrip cfg key hTrip
      omega
  · exact Nat.le_refl _

theorem weight_retire (s : State) : (s.retire t).weight = s.weight := by
  unfold retire
  split <;> rfl

theorem weight_deliver (s : State) : (s.deliver t c).weight ≤ s.weight := by
  unfold deliver
  split
  · next call u o hCall _ =>
      split
      · have := weight_setPhase (.delivered o) hCall
        have hOld : (Phase.waiting u).weight = 2 := rfl
        have hNew : (Phase.delivered o).weight = 1 := rfl
        rw [weight_schedule]
        simp only [List.length_cons, List.length_nil] at this ⊢
        omega
      · exact Nat.le_refl _
  · exact Nat.le_refl _

theorem weight_perform (task : Task) (s : State) : (s.perform cfg task).weight ≤ s.weight := by
  cases task with
  | call c => exact weight_stepCall cfg s
  | trip t => exact weight_stepTrip cfg s
  | retire t => exact Nat.le_of_eq (weight_retire s)
  | deliver t c => exact weight_deliver s

/-- A turn of a state that has something left to do lowers its weight. -/
theorem weight_turn_lt (hReady : s.ready ≠ []) : (s.turn cfg).weight < s.weight := by
  unfold turn
  split
  · contradiction
  · next task rest hTasks =>
      have hPerform := weight_perform cfg task { s with ready := rest }
      have hPop : State.weight { s with ready := rest } < s.weight := by
        simp only [weight, hTasks, List.length_cons]
        omega
      exact Nat.lt_of_le_of_lt hPerform hPop

theorem turns_ready (bound : Nat) (s : State) (hBound : s.weight ≤ bound) :
    (s.turns cfg bound).ready = [] := by
  induction bound generalizing s with
  | zero =>
      have hLength : s.ready.length = 0 := by
        simp only [weight] at hBound
        omega
      exact List.eq_nil_of_length_eq_zero hLength
  | succ bound ih =>
      rw [turns]
      split
      · next hEmpty => simpa using hEmpty
      · next hEmpty =>
          have hLower := weight_turn_lt cfg (s := s) (by simpa using hEmpty)
          exact ih (s.turn cfg) (by omega)

/-- A settled state has nothing left to do. -/
theorem settle_ready (s : State) : (s.settle cfg).ready = [] := turns_ready cfg _ s (Nat.le_refl _)

theorem step_ready (s : State) (actions : List Action) : (s.step cfg actions).ready = [] :=
  settle_ready cfg _

/-- A bound that is large enough makes no difference. -/
theorem turns_eq_of_le {bound bound' : Nat} {s : State} (hBound : s.weight ≤ bound)
    (hBound' : s.weight ≤ bound') : s.turns cfg bound = s.turns cfg bound' := by
  induction bound generalizing s bound' with
  | zero =>
      have hReady : s.ready = [] := turns_ready cfg 0 s hBound
      cases bound' with
      | zero => rfl
      | succ bound' => simp [turns, hReady]
  | succ bound ih =>
      by_cases hReady : s.ready = []
      · cases bound' <;> simp [turns, hReady]
      · have hLess := weight_turn_lt cfg hReady
        cases bound' with
        | zero => omega
        | succ bound' =>
            have hEmpty : ¬s.ready.isEmpty = true := by simpa using hReady
            rw [turns, turns, if_neg hEmpty, if_neg hEmpty]
            exact ih (by omega) (by omega)

theorem settle_of_ready (hReady : s.ready = []) : s.settle cfg = s := by
  rw [settle]
  cases s.weight <;> simp [turns, hReady]

/-- A state settles as it does after its first turn. -/
theorem settle_turn (hReady : s.ready ≠ []) : s.settle cfg = (s.turn cfg).settle cfg := by
  have hLess := weight_turn_lt cfg hReady
  obtain ⟨n, hWeight⟩ := Nat.exists_eq_succ_of_ne_zero (Nat.ne_zero_of_lt hLess)
  have hEmpty : ¬s.ready.isEmpty = true := by simpa using hReady
  rw [settle, hWeight, turns, if_neg hEmpty]
  exact turns_eq_of_le cfg (by omega) (Nat.le_refl _)

theorem run_ready {cfg : Config} (s : State) (hReady : s.ready = []) (steps : List (List Action)) :
    (s.run cfg steps).ready = [] := by
  induction steps generalizing s with
  | nil => exact hReady
  | cons actions steps ih => exact ih (s.step cfg actions) (step_ready cfg s actions)

end Bearer.Cache.State
