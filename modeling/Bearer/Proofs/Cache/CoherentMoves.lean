import Bearer.Proofs.Cache.Coherence

/-! The steps of round trips change no call; what comes from outside concerns one call at a time. So the agreement of
`Coherent` holds after every schedule, cancellations included. -/

namespace Bearer.Cache.State

variable {cfg : Config} {tasks : List Task} {s s' : State} {c : CallId} {t : TripId} {k : Caller}

/-- The state in which a call has been asked to end. -/
def flag (c : CallId) (s : State) : State :=
  { s with calls := s.calls.modify c fun k => { k with cancelRequested := true } }

theorem calls_flag_self (hCall : s.calls[c]? = some k) :
    (s.flag c).calls[c]? = some { k with cancelRequested := true } := by
  simp [flag, hCall]

theorem calls_flag_ne {d : CallId} (hd : d ≠ c) : (s.flag c).calls[d]? = s.calls[d]? := by
  simp [flag, Ne.symm hd]

namespace Coherent

/-- A task that would change nothing can be left out. -/
theorem drop {task : Task} (h : Coherent cfg none (task :: tasks) s) (hCall : ∀ c, task ≠ .call c)
    (hTrip : ∀ t key trip, task = .trip t → cfg.source = .refreshable key →
      s.trips[t]? = some trip → trip ≠ .starting ∧ trip ≠ .released)
    (hRetire : ∀ t, task = .retire t → s.pending = some t → s.isFinished t = false)
    (hDeliver : ∀ t c k, task = .deliver t c → s.calls[c]? = some k → k.phase = .waiting t →
      k.cancelRequested = false → s.isFinished t = false) : Coherent cfg none tasks s := by
  have hDue (c : CallId) : due c tasks = due c (task :: tasks) := by
    cases task with
    | call d => exact absurd rfl (hCall d)
    | trip t => simp
    | retire t => simp
    | deliver t d => simp
  exact {
    placed := fun c k hk _ => by
      refine (h.placed c k hk (by simp)).of_frame ⟨hDue c, id, fun w hw => ⟨w, hw⟩, Nat.le_refl _,
        fun t hPhase hCancel hFinished hOld => ?_⟩
      rcases List.mem_cons.mp (hOld hFinished) with hTask | hMem
      · rw [hDeliver t c k hTask.symm hk hPhase hCancel] at hFinished
        contradiction
      · exact hMem
    holder := h.holder
    waiter := fun c w hw => ⟨(h.waiter c w hw).1, (h.waiter c w hw).2.queued,
      (hDue c).trans (h.waiter c w hw).2.due_eq⟩
    orderly := h.orderly
    served_due := by simp
    idle := fun c hNone => (hDue c).trans (h.idle c hNone)
    pending := fun t ht => ⟨(h.pending t ht).1, fun hFinished => by
      rcases List.mem_cons.mp ((h.pending t ht).2 hFinished) with hTask | hMem
      · rw [hRetire t hTask.symm ht] at hFinished
        contradiction
      · exact hMem⟩
    going := fun key hSource t trip ht hGoing => by
      rcases List.mem_cons.mp (h.going key hSource t trip ht hGoing) with hTask | hMem
      · obtain ⟨hStarting, hReleased⟩ := hTrip t key trip hTask.symm hSource ht
        rcases hGoing with hGoing | hGoing
        · exact absurd hGoing hStarting
        · exact absurd hGoing hReleased
      · exact hMem }

theorem isFinished_setTrip_ne {u : TripId} (hu : u ≠ t) (new : Trip) :
    (s.setTrip t new).isFinished u = s.isFinished u := by
  simp only [isFinished, setTrip, List.getElem?_set_ne (Ne.symm hu)]

/-- A round trip under way goes on. -/
theorem setTrip (h : Coherent cfg none tasks s) (new : Trip) (hOpen : new.isFinished = false)
    (hTask : new = .starting ∨ new = .released → .trip t ∈ tasks) :
    Coherent cfg none tasks (s.setTrip t new) := by
  have hFinished (u : TripId) (hu : (s.setTrip t new).isFinished u = true) : s.isFinished u = true := by
    by_cases hut : u = t
    · subst hut
      simp only [isFinished, State.setTrip, List.getElem?_set_self'] at hu
      cases hTrip : s.trips[u]? with
      | none => simp [hTrip] at hu
      | some old => simp [hTrip, hOpen] at hu
    · rwa [isFinished_setTrip_ne hut] at hu
  have hLength : (s.setTrip t new).trips.length = s.trips.length := List.length_set
  exact {
    placed := fun c k hCall hServed => (h.placed c k hCall hServed).of_frame ⟨rfl, id,
      fun w hw => ⟨w, hw⟩, Nat.le_of_eq hLength.symm, fun u _ _ hDone hOld => hOld (hFinished u hDone)⟩
    holder := h.holder
    waiter := fun c w hw => ⟨(h.waiter c w hw).1, (h.waiter c w hw).2.queued, (h.waiter c w hw).2.due_eq⟩
    orderly := h.orderly
    served_due := h.served_due
    idle := h.idle
    pending := fun u hu => ⟨Nat.lt_of_lt_of_eq (h.pending u hu).1 hLength.symm,
      fun hDone => (h.pending u hu).2 (hFinished u hDone)⟩
    going := fun key hSource u trip hTrip hGoing => by
      change (s.trips.set t new)[u]? = some trip at hTrip
      by_cases hut : t = u
      · subst hut
        rw [List.getElem?_set_self (by simpa using (List.getElem?_eq_some_iff.mp hTrip).1)] at hTrip
        exact hTask (Option.some.inj hTrip ▸ hGoing)
      · rw [List.getElem?_set_ne hut] at hTrip
        exact h.going key hSource u trip hTrip hGoing }

/-- The call that waits for a round trip can be reached unless it was cancelled. -/
theorem listener?_eq (h : Coherent cfg none tasks s) (hCall : s.calls[c]? = some k)
    (hPhase : k.phase = .waiting t) (hCancel : k.cancelRequested = false) : s.listener? t = some c := by
  have hPlaced := h.placed c k hCall (by simp)
  rw [Placed, hPhase] at hPlaced
  obtain ⟨call, phase, cancelRequested⟩ := k
  subst hPhase hCancel
  rw [listener?, hPlaced.1, Option.filter_some, hCall]
  simp

/-- A round trip that finishes is about to retire and to reach the call that waits for it. -/
theorem finishTrip (h : Coherent cfg none (.trip t :: s.ready) s) (o : Outcome) :
    Coherent cfg none (s.finishTrip t o).ready (s.finishTrip t o) := by
  have hListener : ((s.setTrip t (.finished o)).observe [.arrived t o]).listener? t = s.listener? t := rfl
  have hReady : (s.finishTrip t o).ready =
      s.ready ++ .retire t :: (s.listener? t).toList.map (.deliver t) := rfl
  have hDue (c : CallId) : due c (.trip t :: (s.finishTrip t o).ready) = due c (.trip t :: s.ready) := by
    rw [hReady]
    cases s.listener? t <;> simp
  have hMem {task : Task} (hTask : task ∈ (.trip t :: s.ready : List Task)) :
      task ∈ (.trip t :: (s.finishTrip t o).ready : List Task) := by
    rw [hReady]
    exact List.mem_append_left _ hTask
  have hLength : (s.finishTrip t o).trips.length = s.trips.length := List.length_set
  have hAll : Coherent cfg none (.trip t :: (s.finishTrip t o).ready) (s.finishTrip t o) := {
    placed := fun c k hCall _ => by
      refine (h.placed c k hCall (by simp)).of_frame ⟨hDue c, id, fun w hw => ⟨w, hw⟩,
        Nat.le_of_eq hLength.symm, fun u hPhase hCancel hDone hOld => ?_⟩
      by_cases hut : u = t
      · subst hut
        rw [hReady, h.listener?_eq hCall hPhase hCancel]
        simp
      · exact hMem (hOld ((isFinished_setTrip_ne hut (.finished o)).symm.trans hDone))
    holder := h.holder
    waiter := fun c w hw => ⟨(h.waiter c w hw).1, (h.waiter c w hw).2.queued,
      (hDue c).trans (h.waiter c w hw).2.due_eq⟩
    orderly := h.orderly
    served_due := by simp
    idle := fun c hNone => (hDue c).trans (h.idle c hNone)
    pending := fun u hu => ⟨Nat.lt_of_lt_of_eq (h.pending u hu).1 hLength.symm, fun hDone => by
      by_cases hut : u = t
      · rw [hReady, hut]
        simp
      · exact hMem ((h.pending u hu).2 ((isFinished_setTrip_ne hut (.finished o)).symm.trans hDone))⟩
    going := fun key hSource u trip hTrip hGoing => by
      change (s.trips.set t (.finished o))[u]? = some trip at hTrip
      by_cases hut : t = u
      · exact hut ▸ List.mem_cons_self
      · rw [List.getElem?_set_ne hut] at hTrip
        exact hMem (h.going key hSource u trip hTrip hGoing) }
  refine hAll.drop (by simp) (fun u key trip hTask _ hTrip => ?_) (by simp) (by simp)
  cases hTask
  change (s.trips.set t (.finished o))[t]? = some trip at hTrip
  rw [List.getElem?_set_self (by simpa using (List.getElem?_eq_some_iff.mp hTrip).1)] at hTrip
  cases hTrip
  exact ⟨by simp, by simp⟩

theorem answerTrip (h : Coherent cfg none (.trip t :: s.ready) s) (key : RefreshKey) :
    Coherent cfg none (s.answerTrip cfg key t).ready (s.answerTrip cfg key t) := by
  rw [answerTrip_eq]
  refine finishTrip ?_ _
  exact h.of_same rfl rfl rfl fun _ ht => ht

theorem startTrip (h : Coherent cfg none (.trip t :: s.ready) s) (key : RefreshKey)
    (hTrip : s.trips[t]? = some .starting) :
    Coherent cfg none (s.startTrip cfg key t).ready (s.startTrip cfg key t) := by
  unfold State.startTrip
  split
  · exact finishTrip (h.observe [.note (.started key.clientId)]) _
  · next request _ =>
      have hNoted := (h.observe [.note (.started key.clientId)]).observe [.request request]
      split
      · refine (hNoted.setTrip .sent rfl (by simp)).drop (by simp) (fun u _ trip hTask _ hNew => ?_)
          (by simp) (by simp)
        cases hTask
        change (s.trips.set t .sent)[t]? = some trip at hNew
        rw [List.getElem?_set_self (List.getElem?_eq_some_iff.mp hTrip).1] at hNew
        cases hNew
        exact ⟨by simp, by simp⟩
      · exact answerTrip (s := (s.observe [.note (.started key.clientId)]).observe [.request request])
          hNoted key

theorem stepTrip (h : Coherent cfg none (.trip t :: s.ready) s) :
    Coherent cfg none (s.stepTrip cfg t).ready (s.stepTrip cfg t) := by
  unfold State.stepTrip
  split
  · next key _ hTrip => exact h.startTrip key hTrip
  · next key _ _ => exact h.answerTrip key
  · next hStarting hReleased =>
      refine h.drop (by simp) (fun u key trip hTask hSource hTrip => ?_) (by simp) (by simp)
      cases hTask
      refine ⟨?_, ?_⟩
      · rintro rfl
        exact hStarting key hSource hTrip
      · rintro rfl
        exact hReleased key hSource hTrip

theorem retire (h : Coherent cfg none (.retire t :: s.ready) s) :
    Coherent cfg none (s.retire t).ready (s.retire t) := by
  unfold State.retire
  split
  · have hNone : Coherent cfg none (.retire t :: s.ready) { s with pending := none } :=
      h.of_same rfl rfl rfl fun _ hu => by simp at hu
    exact hNone.drop (by simp) (by simp) (by simp) (by simp)
  · next hPending =>
      refine h.drop (by simp) (by simp) (fun u hTask hu => ?_) (by simp)
      cases hTask
      exact absurd hu hPending

/-- The outcome of a round trip reaches the call that waits for it. -/
theorem deliver (h : Coherent cfg none (.deliver t c :: s.ready) s) :
    Coherent cfg none (s.deliver t c).ready (s.deliver t c) := by
  unfold State.deliver
  split
  · next call u outcome hCall hTrip =>
      split
      · next hSame =>
          subst hSame
          have hPlaced := h.placed c _ hCall (by simp)
          simp only [Placed, Bool.false_eq_true, if_false, due_deliver] at hPlaced
          obtain ⟨hHolder, hDue, _⟩ := hPlaced
          have hOnly : OnlyCall c (.deliver u c :: s.ready) (s.ready ++ [.call c]) s
              ((s.setPhase c (.delivered outcome)).schedule [.call c]) := by
            refine ⟨fun _ hd => calls_setPhase_ne hd _, fun d hd => ?_, fun task hTask _ hOther => ?_, rfl,
              fun _ _ _ => Iff.rfl, rfl, rfl⟩
            · simp [due_call_ne (Ne.symm hd)]
            · exact List.mem_append_left _ ((List.mem_cons.mp hTask).resolve_left (hOther u))
          refine h.only_call (.inl rfl) hOnly (calls_setPhase_self hCall _) ⟨hHolder, ?_⟩ (fun _ => rfl)
            (fun w hw => absurd hw (h.not_in_queue hCall (by simp) w)) h.orderly
          change due c (s.ready ++ [.call c]) = 1
          simp [hDue]
      · next hOther =>
          refine h.drop (by simp) (by simp) (by simp) fun v d k hTask hk hPhase _ => ?_
          cases hTask
          rw [hCall, Option.some.injEq] at hk
          subst hk
          cases hPhase
          exact absurd rfl hOther
  · next hNone =>
      refine h.drop (by simp) (by simp) (by simp) fun v d k hTask hk hPhase hCancel => ?_
      cases hTask
      obtain ⟨call, phase, cancelRequested⟩ := k
      subst hPhase hCancel
      unfold isFinished
      rcases hTrip : s.trips[t]? with _ | trip
      · rfl
      · cases trip with
        | finished outcome => exact (hNone call t outcome hk hTrip).elim
        | _ => rfl

theorem turn (h : Coherent cfg none s.ready s) : Coherent cfg none (s.turn cfg).ready (s.turn cfg) := by
  unfold State.turn
  split
  · exact h
  · next task rest hReady =>
      have hTask : Coherent cfg none (task :: rest) { s with ready := rest } :=
        (hReady ▸ h).of_same rfl rfl rfl fun _ ht => ht
      cases task with
      | call c => exact stepCall (s := { s with ready := rest }) hTask
      | trip t => exact stepTrip (s := { s with ready := rest }) hTask
      | retire t => exact retire (s := { s with ready := rest }) hTask
      | deliver t c => exact deliver (s := { s with ready := rest }) hTask

/-- A new call has its first step scheduled. -/
theorem call (h : Coherent cfg none s.ready s) (call : Call) :
    Coherent cfg none (s.act (.call call)).ready (s.act (.call call)) := by
  have hNone : s.calls[s.calls.length]? = none := List.getElem?_eq_none (Nat.le_refl _)
  have hOnly : OnlyCall s.calls.length s.ready (s.ready ++ [.call s.calls.length]) s
      (s.act (.call call)) := by
    refine ⟨fun d hd => ?_, fun d hd => ?_, fun task hTask _ _ => List.mem_append_left _ hTask, rfl,
      fun _ _ _ => Iff.rfl, rfl, rfl⟩
    · change (s.calls ++ [({ call } : Caller)])[d]? = s.calls[d]?
      rw [List.getElem?_append]
      split
      · rfl
      · next hBound =>
          have hAfter : s.calls.length < d := Nat.lt_of_le_of_ne (Nat.le_of_not_lt hBound) (Ne.symm hd)
          rw [List.getElem?_eq_none (Nat.le_of_lt hAfter), List.getElem?_eq_none]
          simp only [List.length_singleton]
          omega
    · simp [due_call_ne (Ne.symm hd)]
  have hSelf : (s.act (.call call)).calls[s.calls.length]? = some { call } := by
    change (s.calls ++ [({ call } : Caller)])[s.calls.length]? = _
    simp
  refine h.only_call (.inl rfl) hOnly hSelf ?_ (fun hHolder => ?_) (fun w hw => ?_) h.orderly
  · change due _ (s.ready ++ [.call s.calls.length]) = 1
    simp [h.idle _ hNone]
  · obtain ⟨k, hCall, _⟩ := h.holder _ hHolder (by simp)
    rw [hNone] at hCall
    contradiction
  · obtain ⟨k, hCall, _⟩ := (h.waiter _ w hw).2.queued
    rw [hNone] at hCall
    contradiction

theorem holds_of_holder (h : Coherent cfg none tasks s) (hCall : s.calls[c]? = some k)
    (hHolder : s.lock.holder = some c) : k.phase.holds = true := by
  obtain ⟨k', hCall', hHolds⟩ := h.holder c hHolder (by simp)
  exact Option.some.inj (hCall'.symm.trans hCall) ▸ hHolds

/-- A call that has its step scheduled already learns of its cancellation then. -/
theorem flag (h : Coherent cfg none tasks s) (hCall : s.calls[c]? = some k)
    (hPlaced : Placed tasks s c { k with cancelRequested := true })
    (hGone : ∀ w, (c, w) ∈ s.lock.waiters → w ≠ .waiting) : Coherent cfg none tasks (s.flag c) := by
  have hOnly : OnlyCall c tasks tasks s (s.flag c) :=
    ⟨fun _ hd => calls_flag_ne hd, fun _ _ => rfl, fun _ ht _ _ => ht, rfl, fun _ _ _ => Iff.rfl, rfl, rfl⟩
  refine h.only_call (.inl rfl) hOnly (calls_flag_self hCall) hPlaced (h.holds_of_holder (k := k) hCall)
    (fun w hw => ?_) h.orderly
  obtain ⟨⟨k', hCall', hQueued, _⟩, hDue⟩ := (h.waiter c w hw).2
  rw [Option.some.inj (hCall'.symm.trans hCall)] at hQueued
  exact ⟨⟨_, calls_flag_self hCall, hQueued, fun h => absurd h (hGone w hw), fun _ => rfl⟩, hDue⟩

/-- A call that waits for the lock gives up its place. -/
theorem cancel_queued (h : Coherent cfg none tasks s) (hCall : s.calls[c]? = some k)
    (hPhase : k.phase = .queued) (hWaiting : (c, .waiting) ∈ s.lock.waiters) :
    Coherent cfg none (tasks ++ [.call c]) { s.flag c with lock := s.lock.giveUp c } := by
  have hDue : due c tasks = 0 := (h.waiter c .waiting hWaiting).2.due_eq
  have hOnly : OnlyCall c tasks (tasks ++ [.call c]) s { s.flag c with lock := s.lock.giveUp c } := by
    refine ⟨fun _ hd => calls_flag_ne hd, fun d hd => ?_, fun _ ht _ _ => List.mem_append_left _ ht, rfl,
      fun d hd w => Lock.mem_giveUp.trans (by simp [hd]), rfl, rfl⟩
    simp [due_call_ne (Ne.symm hd)]
  refine h.only_call (.inl rfl) hOnly (calls_flag_self hCall) ?_ (h.holds_of_holder (k := k) hCall)
    (fun w hw => ?_) (h.orderly.giveUp c)
  · rw [Placed, hPhase]
    exact ⟨.cancelled, Lock.mem_giveUp.mpr (.inr ⟨rfl, .inl ⟨rfl, hWaiting⟩⟩)⟩
  · have hw' : w ≠ .waiting := by
      rintro rfl
      simpa using Lock.mem_giveUp.mp hw
    refine ⟨⟨_, calls_flag_self hCall, hPhase, fun h => absurd h hw', fun _ => rfl⟩, ?_⟩
    simp [hDue, hw']

/-- A call that waits for a round trip is woken. -/
theorem cancel_waiting (h : Coherent cfg none tasks s) (hCall : s.calls[c]? = some k)
    (hPhase : k.phase = .waiting t) (hCancel : k.cancelRequested = false) :
    Coherent cfg none (tasks ++ [.call c]) (s.flag c) := by
  have hPlaced := h.placed c k hCall (by simp)
  simp only [Placed, hPhase, hCancel, Bool.false_eq_true, if_false] at hPlaced
  obtain ⟨hHolder, hDue, hLength, _⟩ := hPlaced
  have hOnly : OnlyCall c tasks (tasks ++ [.call c]) s (s.flag c) := by
    refine ⟨fun _ hd => calls_flag_ne hd, fun d hd => ?_, fun _ ht _ _ => List.mem_append_left _ ht, rfl,
      fun _ _ _ => Iff.rfl, rfl, rfl⟩
    simp [due_call_ne (Ne.symm hd)]
  refine h.only_call (.inl rfl) hOnly (calls_flag_self hCall) ?_ (h.holds_of_holder (k := k) hCall)
    (fun w hw => absurd hw (h.not_in_queue hCall (by simp [hPhase]) w)) h.orderly
  simp only [Placed, hPhase]
  exact ⟨hHolder, by simp [hDue], hLength, by simp⟩

theorem cancel (h : Coherent cfg none s.ready s) (c : CallId) :
    Coherent cfg none (s.cancel c).ready (s.cancel c) := by
  unfold State.cancel
  split
  · exact h
  · next k hCall =>
      have hPlaced := h.placed c k hCall (by simp)
      split
      · exact h
      · next hPhase =>
          split
          · next hWaiting =>
              exact (h.cancel_queued hCall hPhase (Lock.isWaiting_iff.mp hWaiting)).of_same rfl rfl rfl
                fun _ ht => ht
          · next hWaiting =>
              rw [Placed, hPhase] at hPlaced
              refine h.flag hCall (by simpa only [Placed, hPhase] using hPlaced) fun w hw => ?_
              rintro rfl
              exact hWaiting (Lock.isWaiting_iff.mpr hw)
      · next t hPhase =>
          split
          · next hCancel =>
              simp only [Placed, hPhase, if_pos hCancel] at hPlaced
              obtain ⟨hHolder, hDue, hLength, _⟩ := hPlaced
              refine h.flag hCall ?_ fun w hw => absurd hw (h.not_in_queue hCall (by simp [hPhase]) w)
              simp only [Placed, hPhase]
              exact ⟨hHolder, hDue, hLength, by simp⟩
          · next hCancel =>
              exact (h.cancel_waiting hCall hPhase (by simpa using hCancel)).of_same rfl rfl rfl
                fun _ ht => ht
      · next hPhase =>
          exact h.flag hCall (by simpa only [Placed, hPhase] using hPlaced) fun w hw =>
            absurd hw (h.not_in_queue hCall (by simp [hPhase]) w)
      · next hPhase =>
          exact h.flag hCall (by simpa only [Placed, hPhase] using hPlaced) fun w hw =>
            absurd hw (h.not_in_queue hCall (by simp [hPhase]) w)

/-- Tasks may be added that are not the steps of calls. -/
theorem add (h : Coherent cfg none tasks s) (task : Task) (hTask : ∀ c, task ≠ .call c) :
    Coherent cfg none (tasks ++ [task]) s := by
  have hDue (c : CallId) : due c (tasks ++ [task]) = due c tasks := by
    cases task with
    | call d => exact absurd rfl (hTask d)
    | trip t => simp
    | retire t => simp
    | deliver t d => simp
  exact {
    placed := fun c k hCall hServed => (h.placed c k hCall hServed).of_frame ⟨hDue c, id,
      fun w hw => ⟨w, hw⟩, Nat.le_refl _, fun _ _ _ hDone hOld => List.mem_append_left _ (hOld hDone)⟩
    holder := h.holder
    waiter := fun c w hw => ⟨(h.waiter c w hw).1, (h.waiter c w hw).2.queued,
      (hDue c).trans (h.waiter c w hw).2.due_eq⟩
    orderly := h.orderly
    served_due := by simp
    idle := fun c hNone => (hDue c).trans (h.idle c hNone)
    pending := fun t ht => ⟨(h.pending t ht).1, fun hDone =>
      List.mem_append_left _ ((h.pending t ht).2 hDone)⟩
    going := fun key hSource t trip hTrip hGoing =>
      List.mem_append_left _ (h.going key hSource t trip hTrip hGoing) }

theorem release (h : Coherent cfg none s.ready s) :
    Coherent cfg none s.release.ready s.release := by
  unfold State.release
  split
  · exact h
  · next t _ =>
      have hAdd := h.add (.trip t) (by simp)
      exact (hAdd.setTrip .released rfl (by simp)).of_same rfl rfl rfl fun _ ht => ht

theorem act (h : Coherent cfg none s.ready s) (a : Action) :
    Coherent cfg none (s.act a).ready (s.act a) := by
  cases a with
  | call call => exact h.call call
  | cancel c => exact h.cancel c
  | advance micros =>
      obtain ⟨clock, hAct⟩ := act_advance s micros
      rw [hAct]
      exact h.of_same rfl rfl rfl fun _ ht => ht
  | supply replies => exact h.of_same rfl rfl rfl fun _ ht => ht
  | release => exact h.release
  | rest => exact h

theorem move (h : Coherent cfg none s.ready s) (m : Move) :
    Coherent cfg none (s.move cfg m).ready (s.move cfg m) := by
  cases m with
  | act a => exact h.act a
  | turn => exact h.turn

/-- The tasks, the lock and the calls agree after every schedule. -/
theorem play (h : Coherent cfg none s.ready s) (moves : List Move) :
    Coherent cfg none (s.play cfg moves).ready (s.play cfg moves) :=
  play_invariant (P := fun s => Coherent cfg none s.ready s) h (fun _ m h => h.move m) moves

end Coherent

end Bearer.Cache.State
