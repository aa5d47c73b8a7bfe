import Bearer.Cache.State
import Mathlib.Data.List.Nodup

/-! Calls stand in the queue for the lock in order of arrival, each once. -/

namespace Bearer.Cache

namespace Lock

variable {l : Lock} {c : CallId}

/-- Every call stands in the queue once. Only the first can have been passed the lock, and as long as
it has not taken it nobody holds it. -/
structure Orderly (l : Lock) : Prop where
  nodup : (l.waiters.map (·.1)).Nodup
  not_woken_behind : ∀ c, (c, .woken) ∉ l.waiters.tail
  free_of_woken : ∀ c, (c, .woken) ∈ l.waiters → l.holder = none

theorem mem_leave {e : CallId × Wait} : e ∈ (l.leave c).waiters ↔ e ∈ l.waiters ∧ e.1 ≠ c := by
  simp [leave]

theorem leave_eq_self (h : ∀ w, (c, w) ∉ l.waiters) : l.leave c = l := by
  obtain ⟨holder, waiters⟩ := l
  simp only [leave, Lock.mk.injEq, List.filter_eq_self, bne_iff_ne, true_and]
  rintro ⟨d, w⟩ hMem rfl
  exact h w hMem

theorem mem_giveUp {d : CallId} {w : Wait} : (d, w) ∈ (l.giveUp c).waiters ↔
    (d ≠ c ∧ (d, w) ∈ l.waiters) ∨
      (d = c ∧ (w = .cancelled ∧ (c, .waiting) ∈ l.waiters ∨ w ≠ .waiting ∧ (c, w) ∈ l.waiters)) := by
  simp only [giveUp, List.mem_map, Prod.exists]
  constructor
  · rintro ⟨e, v, hMem, hEq⟩
    split at hEq
    · next hCond =>
        obtain ⟨rfl, rfl⟩ := hCond
        cases hEq
        exact .inr ⟨rfl, .inl ⟨rfl, hMem⟩⟩
    · next hCond =>
        cases hEq
        by_cases hd : d = c
        · subst hd
          exact .inr ⟨rfl, .inr ⟨fun hw => hCond ⟨rfl, hw⟩, hMem⟩⟩
        · exact .inl ⟨hd, hMem⟩
  · rintro (⟨hd, hMem⟩ | ⟨rfl, ⟨rfl, hMem⟩ | ⟨hw, hMem⟩⟩)
    · exact ⟨d, w, hMem, by simp [hd]⟩
    · exact ⟨d, .waiting, hMem, by simp⟩
    · exact ⟨d, w, hMem, by simp [hw]⟩

theorem isWaiting_iff : l.isWaiting c = true ↔ (c, .waiting) ∈ l.waiters := by
  simp only [isWaiting, List.any_eq_true, Bool.and_eq_true, beq_iff_eq, Prod.exists]
  exact ⟨fun ⟨_, _, hMem, hd, hw⟩ => hd ▸ hw ▸ hMem, fun hMem => ⟨c, .waiting, hMem, rfl, rfl⟩⟩

theorem isOpen_iff : l.isOpen = true ↔ l.holder = none ∧ ∀ c w, (c, w) ∈ l.waiters → w = .cancelled := by
  simp [isOpen]

/-- The first in the queue is passed the lock if it still waits. -/
theorem wakeFirst_cases (l : Lock) : l.wakeFirst = (l, none) ∨ ∃ d rest,
    l.waiters = (d, .waiting) :: rest ∧
      l.wakeFirst = ({ l with waiters := (d, .woken) :: rest }, some d) := by
  unfold wakeFirst
  split
  · next d rest hWaiters => exact .inr ⟨d, rest, hWaiters, rfl⟩
  · exact .inl rfl

namespace Orderly

theorem start : Orderly {} := ⟨by simp, by simp, by simp⟩

/-- Only one call can have been passed the lock. -/
theorem woken_unique (h : Orderly l) {d : CallId} (hc : (c, .woken) ∈ l.waiters)
    (hd : (d, .woken) ∈ l.waiters) : c = d := by
  rcases hWaiters : l.waiters with _ | ⟨e, rest⟩
  · simp [hWaiters] at hc
  · have hBehind := h.not_woken_behind
    rw [hWaiters] at hc hd hBehind
    have hcFirst := (List.mem_cons.mp hc).resolve_right (hBehind c)
    have hdFirst := (List.mem_cons.mp hd).resolve_right (hBehind d)
    exact congrArg Prod.fst (hcFirst.trans hdFirst.symm)

theorem join (h : Orderly l) (hNew : ∀ w, (c, w) ∉ l.waiters) : Orderly (l.join c) where
  nodup := by
    simp only [Lock.join, List.map_append, List.map_cons, List.map_nil]
    rw [List.nodup_append]
    refine ⟨h.nodup, by simp, ?_⟩
    rintro d hd e he rfl
    obtain ⟨⟨d, w⟩, hMem, rfl⟩ := List.mem_map.mp hd
    rw [List.mem_singleton] at he
    exact hNew w (he ▸ hMem)
  not_woken_behind d hMem := by
    simp only [Lock.join] at hMem
    rcases hWaiters : l.waiters with _ | ⟨e, rest⟩
    · simp [hWaiters] at hMem
    · simp only [hWaiters, List.cons_append, List.tail_cons, List.mem_append, List.mem_singleton,
        Prod.mk.injEq, reduceCtorEq, and_false, or_false] at hMem
      exact h.not_woken_behind d (by simpa [hWaiters] using hMem)
  free_of_woken d hMem := h.free_of_woken d (by simpa [Lock.join] using hMem)

theorem leave (h : Orderly l) (c : CallId) : Orderly (l.leave c) where
  nodup := h.nodup.sublist (List.filter_sublist.map _)
  not_woken_behind d hMem := by
    simp only [Lock.leave] at hMem
    rcases hWaiters : l.waiters with _ | ⟨e, rest⟩
    · simp [hWaiters] at hMem
    · have hRest := h.not_woken_behind d
      rw [hWaiters] at hMem hRest
      rw [List.filter_cons] at hMem
      split at hMem
      · exact hRest (List.mem_filter.mp hMem).1
      · exact hRest (List.mem_filter.mp (List.mem_of_mem_tail hMem)).1
  free_of_woken d hMem := h.free_of_woken d (mem_leave.mp hMem).1

theorem giveUp (h : Orderly l) (c : CallId) : Orderly (l.giveUp c) where
  nodup := by
    have hSame : (l.giveUp c).waiters.map (·.1) = l.waiters.map (·.1) := by
      simp only [Lock.giveUp, List.map_map]
      refine List.map_congr_left fun ⟨d, w⟩ _ => ?_
      simp only [Function.comp_apply]
      split <;> rfl
    rw [hSame]
    exact h.nodup
  not_woken_behind d hMem := by
    simp only [Lock.giveUp, ← List.map_tail, List.mem_map, Prod.exists] at hMem
    obtain ⟨e, v, hMem, hEq⟩ := hMem
    split at hEq
    · cases hEq
    · cases hEq
      exact h.not_woken_behind d hMem
  free_of_woken d hMem := by
    rcases mem_giveUp.mp hMem with ⟨_, hMem⟩ | ⟨rfl, ⟨hw, _⟩ | ⟨_, hMem⟩⟩
    · exact h.free_of_woken d hMem
    · cases hw
    · exact h.free_of_woken d hMem

theorem take (h : Orderly l) (hWoken : ∀ d, (d, .woken) ∉ l.waiters) : Orderly (l.take c) where
  nodup := h.nodup
  not_woken_behind := h.not_woken_behind
  free_of_woken d hMem := absurd hMem (hWoken d)

theorem free (h : Orderly l) : Orderly { l with holder := none } where
  nodup := h.nodup
  not_woken_behind := h.not_woken_behind
  free_of_woken _ _ := rfl

theorem wakeFirst (h : Orderly l) (hFree : l.holder = none) : Orderly l.wakeFirst.1 := by
  rcases l.wakeFirst_cases with hNone | ⟨d, rest, hWaiters, hSome⟩
  · rw [hNone]
    exact h
  · rw [hSome]
    refine ⟨?_, ?_, fun _ _ => hFree⟩
    · have hNodup := h.nodup
      rw [hWaiters] at hNodup
      exact hNodup
    · intro e hMem
      have hBehind := h.not_woken_behind e
      rw [hWaiters] at hBehind
      exact hBehind hMem

end Orderly

/-- A lock that nobody holds has been passed on: the first in the queue does not wait for it. -/
def PassedOn (l : Lock) : Prop := l.holder = none → ∀ c rest, l.waiters ≠ (c, .waiting) :: rest

namespace PassedOn

theorem start : PassedOn {} := by simp [PassedOn]

theorem of_held {d : CallId} (hHolder : l.holder = some d) : PassedOn l := fun hFree => by
  rw [hHolder] at hFree
  contradiction

theorem wakeFirst (l : Lock) : PassedOn l.wakeFirst.1 := by
  intro _ c rest
  rcases hWaiters : l.waiters with _ | ⟨⟨d, w⟩, others⟩
  · simp [Lock.wakeFirst, hWaiters]
  · cases w <;> simp [Lock.wakeFirst, hWaiters]

/-- A newcomer joins a queue that is not empty, or a lock that is held. -/
theorem join (h : PassedOn l) (hBusy : l.isOpen = false) (c : CallId) : PassedOn (l.join c) := by
  intro hFree d rest hWaiters
  have hFree' : l.holder = none := hFree
  rcases hOld : l.waiters with _ | ⟨first, others⟩
  · simp [isOpen, hFree', hOld] at hBusy
  · simp only [Lock.join, hOld, List.cons_append, List.cons.injEq] at hWaiters
    exact h hFree' d others (hWaiters.1 ▸ hOld)

theorem giveUp (h : PassedOn l) (c : CallId) : PassedOn (l.giveUp c) := by
  intro hFree d rest hWaiters
  rcases hOld : l.waiters with _ | ⟨⟨e, w⟩, others⟩
  · simp [Lock.giveUp, hOld] at hWaiters
  · simp only [Lock.giveUp, hOld, List.map_cons, List.cons.injEq] at hWaiters
    obtain ⟨hFirst, _⟩ := hWaiters
    split at hFirst
    · cases hFirst
    · cases hFirst
      exact h hFree d others hOld

end PassedOn

end Lock

end Bearer.Cache
