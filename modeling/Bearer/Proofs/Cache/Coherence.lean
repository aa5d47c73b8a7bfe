import Bearer.Proofs.Cache.Lock
import Bearer.Proofs.Cache.Schedule

/-! Between turns the queue of tasks, the lock and the calls agree. -/

namespace Bearer.Cache

/-- Whether a task is the next step of a call. -/
def Task.isCall (c : CallId) : Task → Bool
  | .call d => d == c
  | .trip _ | .retire _ | .deliver _ _ => false

/-- Whether a call has been given the lock and has not ended. -/
def Phase.holds : Phase → Bool
  | .waiting _ | .delivered _ => true
  | .starting | .queued | .finished _ => false

/-- How many steps of a call are among some tasks. -/
def due (c : CallId) (tasks : List Task) : Nat := tasks.countP (Task.isCall c)

@[simp] theorem due_nil (c : CallId) : due c [] = 0 := rfl

@[simp] theorem due_append (c : CallId) (tasks others : List Task) :
    due c (tasks ++ others) = due c tasks + due c others := List.countP_append

@[simp] theorem due_call_self (c : CallId) (tasks : List Task) :
    due c (.call c :: tasks) = due c tasks + 1 := List.countP_cons_of_pos (by simp [Task.isCall])

theorem due_call_ne {c d : CallId} (h : d ≠ c) (tasks : List Task) :
    due c (.call d :: tasks) = due c tasks := List.countP_cons_of_neg (by simpa [Task.isCall] using h)

@[simp] theorem due_trip (c : CallId) (t : TripId) (tasks : List Task) :
    due c (.trip t :: tasks) = due c tasks := List.countP_cons_of_neg (by simp [Task.isCall])

@[simp] theorem due_retire (c : CallId) (t : TripId) (tasks : List Task) :
    due c (.retire t :: tasks) = due c tasks := List.countP_cons_of_neg (by simp [Task.isCall])

@[simp] theorem due_deliver (c d : CallId) (t : TripId) (tasks : List Task) :
    due c (.deliver t d :: tasks) = due c tasks := List.countP_cons_of_neg (by simp [Task.isCall])

namespace State

/-- What the tasks and the lock say about a call, by the phase that it is in. -/
def Placed (tasks : List Task) (s : State) (c : CallId) (k : Caller) : Prop :=
  match k.phase with
  | .starting => due c tasks = 1
  | .queued => ∃ w, (c, w) ∈ s.lock.waiters
  | .waiting t =>
    s.lock.holder = some c ∧ due c tasks = (if k.cancelRequested then 1 else 0) ∧
      t < s.trips.length ∧
      (k.cancelRequested = false → s.isFinished t = true → .deliver t c ∈ tasks)
  | .delivered _ => s.lock.holder = some c ∧ due c tasks = 1
  | .finished _ => due c tasks = 0

/-- What a place in the queue for the lock says about its call. -/
structure Stands (tasks : List Task) (s : State) (c : CallId) (w : Wait) : Prop where
  queued : ∃ k, s.calls[c]? = some k ∧ k.phase = .queued ∧
    (w = .waiting → k.cancelRequested = false) ∧ (w = .cancelled → k.cancelRequested = true)
  due_eq : due c tasks = if w = .waiting then 0 else 1

/-- The tasks to do, the lock, the calls and the round trips agree; nothing is said about the call
that is being served. -/
structure Coherent (cfg : Config) (served : Option CallId) (tasks : List Task) (s : State) : Prop where
  placed : ∀ c k, s.calls[c]? = some k → served ≠ some c → Placed tasks s c k
  holder : ∀ c, s.lock.holder = some c → served ≠ some c →
    ∃ k, s.calls[c]? = some k ∧ k.phase.holds = true
  waiter : ∀ c w, (c, w) ∈ s.lock.waiters → served ≠ some c ∧ Stands tasks s c w
  orderly : s.lock.Orderly
  served_due : ∀ c, served = some c → due c tasks = 0 ∧ ∃ k, s.calls[c]? = some k
  idle : ∀ c, s.calls[c]? = none → due c tasks = 0
  pending : ∀ t, s.pending = some t →
    t < s.trips.length ∧ (s.isFinished t = true → .retire t ∈ tasks)
  going : ∀ key, cfg.source = .refreshable key → ∀ t trip, s.trips[t]? = some trip →
    trip = .starting ∨ trip = .released → .trip t ∈ tasks

variable {cfg : Config} {served : Option CallId} {tasks : List Task} {s s' : State} {c : CallId}
  {t : TripId} {k : Caller}

/-- What can change while a call keeps its place. -/
structure Frame (c : CallId) (k : Caller) (tasks tasks' : List Task) (s s' : State) : Prop where
  due_eq : due c tasks' = due c tasks
  holder : s.lock.holder = some c → s'.lock.holder = some c
  place : ∀ w, (c, w) ∈ s.lock.waiters → ∃ w', (c, w') ∈ s'.lock.waiters
  length_le : s.trips.length ≤ s'.trips.length
  delivery : ∀ t, k.phase = .waiting t → k.cancelRequested = false → s'.isFinished t = true →
    (s.isFinished t = true → .deliver t c ∈ tasks) → .deliver t c ∈ tasks'

theorem Placed.of_frame {tasks' : List Task} (h : Placed tasks s c k)
    (hFrame : Frame c k tasks tasks' s s') : Placed tasks' s' c k := by
  unfold Placed at h ⊢
  split at h
  · exact hFrame.due_eq.trans h
  · obtain ⟨w, hw⟩ := h
    exact hFrame.place w hw
  · next t hPhase =>
      obtain ⟨hHolder, hDue, hLength, hDelivery⟩ := h
      refine ⟨hFrame.holder hHolder, hFrame.due_eq.trans hDue,
        Nat.lt_of_lt_of_le hLength hFrame.length_le, fun hCancel hFinished => ?_⟩
      exact hFrame.delivery t hPhase hCancel hFinished (hDelivery hCancel)
  · exact ⟨hFrame.holder h.1, hFrame.due_eq.trans h.2⟩
  · exact hFrame.due_eq.trans h

namespace Coherent

theorem start (clock : Instant) (held : HeldToken) (replies : List Reply) :
    Coherent cfg none [] (State.start clock held replies) where
  placed := by simp [State.start]
  holder := by simp [State.start]
  waiter := by simp [State.start]
  orderly := Lock.Orderly.start
  served_due := by simp
  idle := by simp
  pending := by simp [State.start]
  going := by simp [State.start]

/-- Only the calls, the lock and the round trips matter. -/
theorem of_same (h : Coherent cfg served tasks s) (hCalls : s'.calls = s.calls)
    (hLock : s'.lock = s.lock) (hTrips : s'.trips = s.trips)
    (hPending : ∀ t, s'.pending = some t → s.pending = some t) : Coherent cfg served tasks s' := by
  obtain ⟨clock, held, replies, lock, pending, calls, trips, ready, trace⟩ := s
  obtain ⟨clock', held', replies', lock', pending', calls', trips', ready', trace'⟩ := s'
  subst hCalls hLock hTrips
  exact ⟨h.placed, h.holder, fun c w hw => ⟨(h.waiter c w hw).1, (h.waiter c w hw).2.queued,
    (h.waiter c w hw).2.due_eq⟩, h.orderly, h.served_due, h.idle,
    fun t ht => h.pending t (hPending t ht), h.going⟩

theorem observe (h : Coherent cfg served tasks s) (events : List Event) :
    Coherent cfg served tasks (s.observe events) := h.of_same rfl rfl rfl fun _ ht => ht

theorem hand (h : Coherent cfg served tasks s) (o : Outcome) :
    Coherent cfg served tasks (s.hand c o) := h.of_same rfl rfl rfl fun _ ht => ht

end Coherent

theorem calls_setPhase_self (hCall : s.calls[c]? = some k) (p : Phase) :
    (s.setPhase c p).calls[c]? = some { k with phase := p } := by
  simp [setPhase, hCall]

theorem calls_setPhase_ne {d : CallId} (hd : d ≠ c) (p : Phase) :
    (s.setPhase c p).calls[d]? = s.calls[d]? := by
  simp [setPhase, Ne.symm hd]

/-- Two states, each with its tasks to do, differ at most in what concerns one call. -/
structure OnlyCall (c : CallId) (tasks tasks' : List Task) (s s' : State) : Prop where
  calls : ∀ d, d ≠ c → s'.calls[d]? = s.calls[d]?
  due_eq : ∀ d, d ≠ c → due d tasks' = due d tasks
  mem : ∀ task ∈ tasks, task ≠ .call c → (∀ t, task ≠ .deliver t c) → task ∈ tasks'
  holder : s'.lock.holder = s.lock.holder
  waiter : ∀ d, d ≠ c → ∀ w, (d, w) ∈ s'.lock.waiters ↔ (d, w) ∈ s.lock.waiters
  trips : s'.trips = s.trips
  pending : s'.pending = s.pending

namespace Coherent

/-- What changes for one call needs to be checked for that call alone. -/
theorem only_call {tasks' : List Task} (h : Coherent cfg served tasks s)
    (hServed : served = none ∨ served = some c) (hOnly : OnlyCall c tasks tasks' s s')
    (hCall : s'.calls[c]? = some k) (hPlaced : Placed tasks' s' c k)
    (hHolds : s.lock.holder = some c → k.phase.holds = true)
    (hStands : ∀ w, (c, w) ∈ s'.lock.waiters → Stands tasks' s' c w) (hOrderly : s'.lock.Orderly) :
    Coherent cfg none tasks' s' := by
  have hNotServed {d : CallId} (hd : d ≠ c) : served ≠ some d := by
    rcases hServed with rfl | rfl
    · simp
    · simpa using Ne.symm hd
  have hFinished (t : TripId) : s'.isFinished t = s.isFinished t := by
    rw [isFinished, hOnly.trips]
    rfl
  exact {
    placed := fun d k' hCall' _ => by
      by_cases hd : d = c
      · subst hd
        exact Option.some.inj (hCall.symm.trans hCall') ▸ hPlaced
      · rw [hOnly.calls d hd] at hCall'
        refine (h.placed d k' hCall' (hNotServed hd)).of_frame ⟨hOnly.due_eq d hd, fun hHolder => ?_,
          fun w hw => ⟨w, (hOnly.waiter d hd w).mpr hw⟩,
          Nat.le_of_eq (congrArg List.length hOnly.trips.symm), fun t _ _ hDone hOld => ?_⟩
        · exact hOnly.holder.trans hHolder
        · exact hOnly.mem _ (hOld (hFinished t ▸ hDone)) (by simp) (by simpa using hd)
    holder := fun d hHolder _ => by
      rw [hOnly.holder] at hHolder
      by_cases hd : d = c
      · subst hd
        exact ⟨k, hCall, hHolds hHolder⟩
      · rw [hOnly.calls d hd]
        exact h.holder d hHolder (hNotServed hd)
    waiter := fun d w hw => by
      by_cases hd : d = c
      · subst hd
        exact ⟨by simp, hStands w hw⟩
      · obtain ⟨_, hOld⟩ := h.waiter d w ((hOnly.waiter d hd w).mp hw)
        exact ⟨by simp, by rw [hOnly.calls d hd]; exact hOld.queued, (hOnly.due_eq d hd).trans hOld.due_eq⟩
    orderly := hOrderly
    served_due := by simp
    idle := fun d hNone => by
      have hd : d ≠ c := by
        rintro rfl
        rw [hCall] at hNone
        contradiction
      rw [hOnly.calls d hd] at hNone
      exact (hOnly.due_eq d hd).trans (h.idle d hNone)
    pending := fun t ht => by
      rw [hOnly.pending] at ht
      rw [hOnly.trips, hFinished]
      exact ⟨(h.pending t ht).1, fun hDone => hOnly.mem _ ((h.pending t ht).2 hDone) (by simp) (by simp)⟩
    going := fun key hSource t trip hTrip hGoing => by
      rw [hOnly.trips] at hTrip
      exact hOnly.mem _ (h.going key hSource t trip hTrip hGoing) (by simp) (by simp) }

/-- The call whose step comes next leaves the queue for the lock and is served. -/
theorem serve (h : Coherent cfg none (.call c :: tasks) s) :
    ∃ k, s.calls[c]? = some k ∧ Coherent cfg (some c) tasks { s with lock := s.lock.leave c } := by
  obtain ⟨k, hCall⟩ : ∃ k, s.calls[c]? = some k := by
    cases hCall : s.calls[c]? with
    | some k => exact ⟨k, rfl⟩
    | none =>
        have hIdle := h.idle c hCall
        rw [due_call_self] at hIdle
        contradiction
  have hDue : due c tasks = 0 := by
    have hPlaced := h.placed c k hCall (by simp)
    unfold Placed at hPlaced
    simp only [due_call_self] at hPlaced
    split at hPlaced
    · omega
    · obtain ⟨w, hw⟩ := hPlaced
      have hStands := (h.waiter c w hw).2.due_eq
      rw [due_call_self] at hStands
      split at hStands <;> omega
    · obtain ⟨_, hWaiting, _⟩ := hPlaced
      split at hWaiting <;> omega
    · omega
    · omega
  have hOther {d : CallId} (hd : d ≠ c) : due d (.call c :: tasks) = due d tasks :=
    due_call_ne (Ne.symm hd) tasks
  refine ⟨k, hCall, ?_⟩
  exact {
    placed := fun d k' hCall' hServed => by
      have hd : d ≠ c := fun hd => hServed (by rw [hd])
      refine (h.placed d k' hCall' (by simp)).of_frame ⟨(hOther hd).symm, id, fun w hw => ?_,
        Nat.le_refl _, fun u _ _ hDone hOld => ?_⟩
      · exact ⟨w, Lock.mem_leave.mpr ⟨hw, hd⟩⟩
      · simpa using hOld hDone
    holder := fun d hHolder _ => h.holder d hHolder (by simp)
    waiter := fun d w hw => by
      obtain ⟨hw, hd⟩ := Lock.mem_leave.mp hw
      obtain ⟨_, hStands⟩ := h.waiter d w hw
      exact ⟨fun hServed => hd (Option.some.inj hServed).symm, hStands.queued,
        (hOther hd).symm.trans hStands.due_eq⟩
    orderly := h.orderly.leave c
    served_due := fun d hd => Option.some.inj hd ▸ ⟨hDue, k, hCall⟩
    idle := fun d hNone => by
      by_cases hd : d = c
      · rw [hd]
        exact hDue
      · exact (hOther hd).symm.trans (h.idle d hNone)
    pending := fun t ht => ⟨(h.pending t ht).1, fun hFinished => by
      simpa using (h.pending t ht).2 hFinished⟩
    going := fun key hSource t trip hTrip hGoing => by
      simpa using h.going key hSource t trip hTrip hGoing }

/-- The call that is served is put in its new place. -/
theorem put (h : Coherent cfg (some c) tasks s) (hCall : s.calls[c]? = some k) (p : Phase)
    (hPlaced : Placed tasks s c { k with phase := p })
    (hHolder : s.lock.holder = some c → p.holds = true) :
    Coherent cfg none tasks (s.setPhase c p) := by
  have hOnly : OnlyCall c tasks tasks s (s.setPhase c p) :=
    ⟨fun _ hd => calls_setPhase_ne hd p, fun _ _ => rfl, fun _ ht _ _ => ht, rfl, fun _ _ _ => Iff.rfl,
      rfl, rfl⟩
  exact h.only_call (.inr rfl) hOnly (calls_setPhase_self hCall p) hPlaced hHolder
    (fun w hw => absurd rfl (h.waiter c w hw).1) h.orderly

theorem finish (h : Coherent cfg (some c) tasks s) (hHolder : s.lock.holder ≠ some c) (r : Result) :
    Coherent cfg none tasks (s.finish c r) := by
  obtain ⟨hDue, k, hCall⟩ := h.served_due c rfl
  exact (h.put hCall (.finished r) hDue fun h => absurd h hHolder).of_same rfl rfl rfl fun _ ht => ht

/-- The call that is served goes to the end of the queue for the lock. -/
theorem join (h : Coherent cfg (some c) tasks s) (hCall : s.calls[c]? = some k)
    (hCancel : k.cancelRequested = false) (hHolder : s.lock.holder ≠ some c) :
    Coherent cfg none tasks ({ s with lock := s.lock.join c }.setPhase c .queued) := by
  have hMem {d : CallId} {w : Wait} :
      (d, w) ∈ (s.lock.join c).waiters ↔ (d, w) ∈ s.lock.waiters ∨ d = c ∧ w = .waiting := by
    simp [Lock.join]
  have hSelf := calls_setPhase_self (s := { s with lock := s.lock.join c }) hCall .queued
  have hOnly : OnlyCall c tasks tasks s ({ s with lock := s.lock.join c }.setPhase c .queued) :=
    ⟨fun _ hd => calls_setPhase_ne (s := { s with lock := s.lock.join c }) hd .queued, fun _ _ => rfl,
      fun _ ht _ _ => ht, rfl, fun d hd w => hMem.trans (by simp [hd]), rfl, rfl⟩
  refine h.only_call (.inr rfl) hOnly hSelf ⟨.waiting, hMem.mpr (.inr ⟨rfl, rfl⟩)⟩
    (fun h => absurd h hHolder) (fun w hw => ?_) (h.orderly.join fun w hw => (h.waiter c w hw).1 rfl)
  rcases hMem.mp hw with hw | ⟨_, rfl⟩
  · exact absurd rfl (h.waiter c w hw).1
  · exact ⟨⟨_, hSelf, rfl, fun _ => hCancel, by simp⟩, (h.served_due c rfl).1⟩

/-- The call that is served takes the lock, which nobody holds and nobody else was passed. -/
theorem take (h : Coherent cfg (some c) tasks s) (hFree : s.lock.holder = none)
    (hWoken : ∀ d, (d, .woken) ∉ s.lock.waiters) :
    Coherent cfg (some c) tasks { s with lock := s.lock.take c } where
  placed d k' hCall' hServed :=
    (h.placed d k' hCall' hServed).of_frame ⟨rfl, fun hHolder => by simp [hFree] at hHolder,
      fun w hw => ⟨w, hw⟩, Nat.le_refl _, fun _ _ _ hDone hOld => hOld hDone⟩
  holder d hHolder hServed := absurd hHolder hServed
  waiter d w hw := ⟨(h.waiter d w hw).1, (h.waiter d w hw).2.queued, (h.waiter d w hw).2.due_eq⟩
  orderly := h.orderly.take hWoken
  served_due := h.served_due
  idle := h.idle
  pending := h.pending
  going := h.going

/-- The call that is served gives the lock back. -/
theorem free (h : Coherent cfg (some c) tasks s) (hHolder : s.lock.holder = some c) :
    Coherent cfg (some c) tasks { s with lock := { s.lock with holder := none } } where
  placed d k' hCall' hServed :=
    (h.placed d k' hCall' hServed).of_frame ⟨rfl, fun hd => absurd (hHolder.symm.trans hd) hServed,
      fun w hw => ⟨w, hw⟩, Nat.le_refl _, fun _ _ _ hDone hOld => hOld hDone⟩
  holder d hNone _ := by simp at hNone
  waiter d w hw := ⟨(h.waiter d w hw).1, (h.waiter d w hw).2.queued, (h.waiter d w hw).2.due_eq⟩
  orderly := h.orderly.free
  served_due := h.served_due
  idle := h.idle
  pending := h.pending
  going := h.going

/-- The first in the queue is passed the lock. -/
theorem wakeFirst (h : Coherent cfg (some c) s.ready s) (hFree : s.lock.holder = none) :
    Coherent cfg (some c) (s.withLock s.lock.wakeFirst).ready (s.withLock s.lock.wakeFirst) ∧
      (s.withLock s.lock.wakeFirst).lock.holder = none := by
  have hOrderly := h.orderly.wakeFirst hFree
  rcases s.lock.wakeFirst_cases with hNone | ⟨d, rest, hWaiters, hSome⟩
  · rw [hNone]
    have hReady : (s.withLock (s.lock, none)).ready = s.ready := by simp [withLock, schedule]
    rw [hReady]
    exact ⟨h.of_same rfl rfl rfl fun _ ht => ht, hFree⟩
  · rw [hSome] at hOrderly ⊢
    have hFirst : (d, .waiting) ∈ s.lock.waiters := by simp [hWaiters]
    obtain ⟨hServed, hStands⟩ := h.waiter d .waiting hFirst
    obtain ⟨k, hCall, hQueued, hCancel, _⟩ := hStands.queued
    have hOther {e : CallId} (he : e ≠ d) : due e (s.ready ++ [.call d]) = due e s.ready := by
      simp [due_call_ne (Ne.symm he)]
    have hRest {e : CallId} {w : Wait} (hw : (e, w) ∈ rest) : e ≠ d := by
      have hNodup := h.orderly.nodup
      rw [hWaiters, List.map_cons, List.nodup_cons] at hNodup
      rintro rfl
      exact hNodup.1 (List.mem_map.mpr ⟨_, hw, rfl⟩)
    refine ⟨?_, hFree⟩
    exact {
      placed := fun e k' hCall' hServed' => by
        by_cases he : e = d
        · subst he
          rw [show k' = k from Option.some.inj (hCall'.symm.trans hCall), Placed, hQueued]
          exact ⟨.woken, List.mem_cons_self⟩
        · refine (h.placed e k' hCall' hServed').of_frame ⟨hOther he, id, fun w hw => ⟨w, ?_⟩,
            Nat.le_refl _, fun _ _ _ hDone hOld => List.mem_append_left _ (hOld hDone)⟩
          rw [hWaiters] at hw
          rcases List.mem_cons.mp hw with hw | hw
          · exact absurd (congrArg Prod.fst hw) he
          · exact List.mem_cons_of_mem _ hw
      holder := fun e hHolder _ => by
        exact absurd (hFree.symm.trans hHolder) (by simp)
      waiter := fun e w hw => by
        rcases List.mem_cons.mp hw with hw | hw
        · cases hw
          refine ⟨hServed, ⟨k, hCall, hQueued, fun _ => hCancel rfl, by simp⟩, ?_⟩
          change due d (s.ready ++ [.call d]) = 1
          rw [due_append, hStands.due_eq, due_call_self]
          rfl
        · obtain ⟨hServed', hStands'⟩ := h.waiter e w (by rw [hWaiters]; exact List.mem_cons_of_mem _ hw)
          exact ⟨hServed', hStands'.queued, (hOther (hRest hw)).trans hStands'.due_eq⟩
      orderly := hOrderly
      served_due := fun e he => by
        have hed : e ≠ d := fun hed => hServed (hed ▸ he)
        exact ⟨(hOther hed).trans (h.served_due e he).1, (h.served_due e he).2⟩
      idle := fun e hNone => by
        have hed : e ≠ d := by
          rintro rfl
          exact absurd (hCall.symm.trans hNone) (by simp)
        exact (hOther hed).trans (h.idle e hNone)
      pending := fun t ht => ⟨(h.pending t ht).1, fun hFinished =>
        List.mem_append_left _ ((h.pending t ht).2 hFinished)⟩
      going := fun key hSource t trip hTrip hGoing =>
        List.mem_append_left _ (h.going key hSource t trip hTrip hGoing) }

/-- The call that is served holds the lock and ends. -/
theorem finishHolder (h : Coherent cfg (some c) s.ready s) (hHolder : s.lock.holder = some c)
    (r : Result) : Coherent cfg none (s.finishHolder c r).ready (s.finishHolder c r) := by
  obtain ⟨hWoken, hFree⟩ := wakeFirst (s := { s with lock := { s.lock with holder := none } })
    (h.free hHolder) rfl
  refine hWoken.finish (fun hHolder' => ?_) r
  rw [hFree] at hHolder'
  contradiction

theorem dropFinished (h : Coherent cfg served tasks s) : Coherent cfg served tasks s.dropFinished := by
  rw [dropFinished_eq]
  exact h.of_same rfl rfl rfl fun t ht => (Option.filter_eq_some_iff.mp ht).1

/-- A round trip is begun, and can be joined. -/
theorem begin (h : Coherent cfg served s.ready s) :
    let s' := { s with trips := s.trips ++ [Trip.starting], pending := some s.trips.length }.schedule
      [.trip s.trips.length]
    Coherent cfg served s'.ready s' := by
  intro s'
  have hFinished (t : TripId) (ht : s'.isFinished t = true) : s.isFinished t = true := by
    change ((s.trips ++ [Trip.starting])[t]?.map (·.isFinished)).getD false = true at ht
    rw [List.getElem?_append] at ht
    split at ht
    · exact ht
    · rcases hLast : t - s.trips.length with _ | n
      · rw [hLast] at ht
        contradiction
      · rw [hLast] at ht
        contradiction
  have hDue (d : CallId) : due d s'.ready = due d s.ready := by
    change due d (s.ready ++ [.trip s.trips.length]) = _
    simp
  have hLength : s'.trips.length = s.trips.length + 1 := by
    change (s.trips ++ [Trip.starting]).length = _
    simp
  exact {
    placed := fun d k' hCall hServed => (h.placed d k' hCall hServed).of_frame ⟨hDue d, id,
      fun w hw => ⟨w, hw⟩, Nat.le.intro hLength.symm,
      fun t _ _ hDone hOld => List.mem_append_left _ (hOld (hFinished t hDone))⟩
    holder := h.holder
    waiter := fun d w hw => ⟨(h.waiter d w hw).1, (h.waiter d w hw).2.queued,
      (hDue d).trans (h.waiter d w hw).2.due_eq⟩
    orderly := h.orderly
    served_due := fun d hd => ⟨(hDue d).trans (h.served_due d hd).1, (h.served_due d hd).2⟩
    idle := fun d hNone => (hDue d).trans (h.idle d hNone)
    pending := fun t ht => by
      have hSame : t = s.trips.length := (Option.some.inj ht).symm
      subst hSame
      refine ⟨Nat.lt_of_lt_of_eq (Nat.lt_succ_self _) hLength.symm, fun hNew => ?_⟩
      have hOld := hFinished _ hNew
      simp [isFinished] at hOld
    going := fun key hSource t trip hTrip hGoing => by
      change (s.trips ++ [Trip.starting])[t]? = some trip at hTrip
      change _ ∈ s.ready ++ [.trip s.trips.length]
      by_cases ht : t < s.trips.length
      · rw [List.getElem?_append_left ht] at hTrip
        exact List.mem_append_left _ (h.going key hSource t trip hTrip hGoing)
      · have hBound := (List.getElem?_eq_some_iff.mp hTrip).1
        rw [List.length_append, List.length_singleton] at hBound
        have hSame : t = s.trips.length :=
          Nat.le_antisymm (Nat.le_of_lt_succ hBound) (Nat.le_of_not_lt ht)
        simp [hSame] }

/-- The call that is served holds the lock and waits for a round trip under way. -/
theorem awaitTrip (h : Coherent cfg (some c) s.ready s) (hHolder : s.lock.holder = some c)
    (hCall : s.calls[c]? = some k) (hCancel : k.cancelRequested = false)
    (hPending : ∀ t, s.pending = some t → s.isFinished t = false) :
    Coherent cfg none (s.awaitTrip c).ready (s.awaitTrip c) := by
  have hWait {s' : State} (h : Coherent cfg (some c) s'.ready s') (hHolder : s'.lock.holder = some c)
      (hCall : s'.calls[c]? = some k) {t : TripId} (ht : s'.pending = some t)
      (hOpen : s'.isFinished t = false) :
      Coherent cfg none (s'.setPhase c (.waiting t)).ready (s'.setPhase c (.waiting t)) := by
    refine h.put hCall (.waiting t) ⟨hHolder, ?_, (h.pending t ht).1, fun _ hFinished => ?_⟩ fun _ => rfl
    · rw [(h.served_due c rfl).1]
      simp [hCancel]
    · rw [hOpen] at hFinished
      contradiction
  unfold State.awaitTrip
  split
  · next t ht => exact hWait h hHolder hCall ht (hPending t ht)
  · have hOpen : (s.trips ++ [Trip.starting])[s.trips.length]?.map (·.isFinished) = some false := by
      simp [Trip.isFinished]
    exact hWait h.begin hHolder hCall rfl (congrArg (·.getD false) hOpen)

theorem enter (h : Coherent cfg (some c) s.ready s) (hCall : s.calls[c]? = some k)
    (hCancel : k.cancelRequested = false) (hFree : s.lock.holder = none)
    (hWoken : ∀ d, (d, .woken) ∉ s.lock.waiters) (call : Call) :
    Coherent cfg none (s.enter cfg c call).ready (s.enter cfg c call) := by
  generalize hTaken : ({ s with lock := s.lock.take c }.observe [.acquired c]).dropFinished = taken
  have hSame : taken.lock.holder = some c ∧ taken.calls = s.calls := by
    rw [← hTaken, dropFinished_eq]
    exact ⟨rfl, rfl⟩
  have hOpen : ∀ t, taken.pending = some t → taken.isFinished t = false := by
    rw [← hTaken]
    exact fun t ht => isFinished_of_joined ht
  have hReady : taken.ready = s.ready := by
    rw [← hTaken, dropFinished_eq]
    rfl
  have hServed : Coherent cfg (some c) taken.ready taken := by
    rw [hReady, ← hTaken]
    exact ((h.take hFree hWoken).observe _).dropFinished
  unfold State.enter
  rw [hTaken]
  dsimp only
  split
  · exact hServed.finishHolder hSame.1 _
  · generalize hNoted : (taken.observe [.note (.cached taken.held.expiresAt)]).hand c _ = noted
    have hNotedServed : Coherent cfg (some c) noted.ready noted := hNoted ▸ (hServed.observe _).hand _
    exact hNotedServed.finishHolder (hNoted ▸ hSame.1) _
  · exact hServed.awaitTrip hSame.1 (hSame.2 ▸ hCall) hCancel hOpen

/-- Only calls that wait for the lock stand in its queue. -/
theorem not_in_queue (h : Coherent cfg served tasks s) (hCall : s.calls[c]? = some k)
    (hPhase : k.phase ≠ .queued) (w : Wait) : (c, w) ∉ s.lock.waiters := by
  intro hw
  obtain ⟨k', hCall', hQueued, _⟩ := (h.waiter c w hw).2.queued
  rw [Option.some.inj (hCall'.symm.trans hCall)] at hQueued
  exact hPhase hQueued

theorem not_holder (h : Coherent cfg none tasks s) (hCall : s.calls[c]? = some k)
    (hPhase : k.phase.holds = false) : s.lock.holder ≠ some c := by
  intro hHolder
  obtain ⟨k', hCall', hHolds⟩ := h.holder c hHolder (by simp)
  rw [Option.some.inj (hCall'.symm.trans hCall), hPhase] at hHolds
  contradiction

/-- The call that is served did not stand in the queue for the lock. -/
theorem serve_of_ne_queued (h : Coherent cfg none (.call c :: tasks) s) (hCall : s.calls[c]? = some k)
    (hPhase : k.phase ≠ .queued) : Coherent cfg (some c) tasks s := by
  obtain ⟨_, _, hServed⟩ := h.serve
  rw [Lock.leave_eq_self (h.not_in_queue hCall hPhase)] at hServed
  exact hServed

theorem startCall (h : Coherent cfg none (.call c :: s.ready) s) (hCall : s.calls[c]? = some k)
    (hPhase : k.phase = .starting) :
    Coherent cfg none (s.startCall cfg c k).ready (s.startCall cfg c k) := by
  have hServed := h.serve_of_ne_queued hCall (by simp [hPhase])
  have hHolder := h.not_holder hCall (by simp [hPhase, Phase.holds])
  unfold State.startCall
  split
  · exact hServed.finish hHolder .cancelled
  · next hCancel =>
      split
      · next token _ => exact (hServed.hand (.token token)).finish hHolder _
      · split
        · next hOpen =>
            obtain ⟨hFree, hGone⟩ := Lock.isOpen_iff.mp hOpen
            refine hServed.enter hCall (by simpa using hCancel) hFree (fun d hd => ?_) k.call
            cases hGone d .woken hd
        · exact hServed.join hCall (by simpa using hCancel) hHolder

/-- The step of a call in the queue that did not give up is due only because it was passed the lock, which
nobody holds. -/
theorem free_of_resumed {tasks : List Task} (h : Coherent cfg none (.call c :: tasks) s)
    (hCall : s.calls[c]? = some k) (hPhase : k.phase = .queued) (hCancel : k.cancelRequested = false) :
    (c, .woken) ∈ s.lock.waiters ∧ s.lock.holder = none := by
  have hPlaced := h.placed c k hCall (by simp)
  rw [Placed, hPhase] at hPlaced
  obtain ⟨w, hw⟩ := hPlaced
  obtain ⟨⟨k', hCall', _, _, hGaveUp⟩, hDue⟩ := (h.waiter c w hw).2
  rw [Option.some.inj (hCall'.symm.trans hCall), hCancel] at hGaveUp
  rw [due_call_self] at hDue
  cases w with
  | waiting => simp at hDue
  | woken => exact ⟨hw, h.orderly.free_of_woken c hw⟩
  | cancelled => exact absurd (hGaveUp rfl) (by simp)

theorem resumeQueued (h : Coherent cfg none (.call c :: s.ready) s) (hCall : s.calls[c]? = some k)
    (hPhase : k.phase = .queued) :
    Coherent cfg none (s.resumeQueued cfg c k).ready (s.resumeQueued cfg c k) := by
  obtain ⟨_, _, hServed⟩ := h.serve
  have hHolder := h.not_holder hCall (by simp [hPhase, Phase.holds])
  unfold State.resumeQueued
  dsimp only
  split
  · split
    · next hFree =>
        obtain ⟨hWoken, hStillFree⟩ := wakeFirst (s := { s with lock := s.lock.leave c }) hServed
          (by simpa using hFree)
        refine hWoken.finish (fun hHolder' => ?_) .cancelled
        rw [hStillFree] at hHolder'
        contradiction
    · exact hServed.finish hHolder .cancelled
  · next hCancel =>
      obtain ⟨hWoken, hFree⟩ := h.free_of_resumed hCall hPhase (by simpa using hCancel)
      refine enter (s := { s with lock := s.lock.leave c }) hServed hCall (by simpa using hCancel)
        hFree (fun d hd => ?_) k.call
      obtain ⟨hd, hdc⟩ := Lock.mem_leave.mp hd
      exact hdc (h.orderly.woken_unique hd hWoken)

theorem stepCall (h : Coherent cfg none (.call c :: s.ready) s) :
    Coherent cfg none (s.stepCall cfg c).ready (s.stepCall cfg c) := by
  obtain ⟨k, hCall, _⟩ := h.serve
  have hPlaced := h.placed c k hCall (by simp)
  unfold State.stepCall
  rw [hCall]
  dsimp only
  cases hPhase : k.phase with
  | starting => exact h.startCall hCall hPhase
  | queued => exact h.resumeQueued hCall hPhase
  | waiting t =>
      rw [Placed, hPhase] at hPlaced
      obtain ⟨hHolder, hDue, _⟩ := hPlaced
      have hServed := h.serve_of_ne_queued hCall (by simp [hPhase])
      cases hCancel : k.cancelRequested with
      | true => exact hServed.finishHolder hHolder .cancelled
      | false => simp [hCancel] at hDue
  | delivered o =>
      rw [Placed, hPhase] at hPlaced
      generalize hHanded : s.hand c (if k.cancelRequested then .cancelled else o) = handed
      have hServed : Coherent cfg (some c) handed.ready handed :=
        hHanded ▸ (h.serve_of_ne_queued hCall (by simp [hPhase])).hand _
      dsimp only
      rw [hHanded]
      exact hServed.finishHolder (hHanded ▸ hPlaced.1) _
  | finished r =>
      rw [Placed, hPhase] at hPlaced
      simp at hPlaced

end Coherent

end State

end Bearer.Cache
