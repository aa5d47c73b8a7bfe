import Bearer.Proofs.Cache.CoherentMoves
import Bearer.Proofs.Cache.Turn

/-! A call that waits for a round trip ends in one of two ways: it is cancelled, or it takes the outcome of that very
round trip. -/

namespace Bearer.Cache.State

variable {cfg : Config} {s s' : State} {c d : CallId} {t : TripId} {k : Caller}

/-- What a move does to one call. -/
inductive CallerEffect (c : CallId) (trips : List Trip) (k k' : Caller) : Prop where
  | quiet (hSame : k' = k)
  | flagged (hSame : k' = { k with cancelRequested := true })
  | served (hPhase : k.phase = .starting ∨ k.phase = .queued) (p : Phase)
      (hSame : k' = { k with phase := p })
  | gaveUp (t : TripId) (hPhase : k.phase = .waiting t) (hCancel : k.cancelRequested = true)
      (hSame : k' = { k with phase := .finished .cancelled })
  | reached (t : TripId) (o : Outcome) (hPhase : k.phase = .waiting t) (hCancel : k.cancelRequested = false)
      (hTrip : trips[t]? = some (.finished o)) (hSame : k' = { k with phase := .delivered o })
  | ended (o : Outcome) (hPhase : k.phase = .delivered o)
      (hSame : k' = { k with
        phase := .finished (if k.cancelRequested then .cancelled else resultOf c k.call o) })

theorem calls_finishHolder (c : CallId) (r : Result) (s : State) :
    (s.finishHolder c r).calls = (s.setPhase c (.finished r)).calls := rfl

theorem calls_awaitTrip (c : CallId) (s : State) :
    ∃ t, (s.awaitTrip c).calls = (s.setPhase c (.waiting t)).calls := by
  unfold awaitTrip
  split
  · exact ⟨_, rfl⟩
  · exact ⟨_, rfl⟩

theorem calls_enter (cfg : Config) (c : CallId) (call : Call) (s : State) :
    ∃ p, (s.enter cfg c call).calls = (s.setPhase c p).calls := by
  have hDrop : ({ s with lock := s.lock.take c }.observe [.acquired c]).dropFinished.calls = s.calls := by
    rw [dropFinished_eq]
    rfl
  have hPhase (p : Phase) {s' : State} (hCalls : s'.calls = s.calls) :
      (s'.setPhase c p).calls = (s.setPhase c p).calls := by
    simp only [setPhase, hCalls]
  unfold enter
  dsimp only
  split
  · exact ⟨_, hPhase _ hDrop⟩
  · exact ⟨_, hPhase _ hDrop⟩
  · obtain ⟨t, hAwait⟩ := calls_awaitTrip c ({ s with lock := s.lock.take c }.observe [.acquired c]).dropFinished
    exact ⟨_, hAwait.trans (hPhase _ hDrop)⟩

theorem calls_startCall (cfg : Config) (c : CallId) (k : Caller) (s : State) :
    ∃ p, (s.startCall cfg c k).calls = (s.setPhase c p).calls := by
  unfold startCall
  split
  · exact ⟨_, rfl⟩
  · split
    · exact ⟨_, rfl⟩
    · split
      · exact calls_enter cfg c k.call s
      · exact ⟨_, rfl⟩

theorem calls_resumeQueued (cfg : Config) (c : CallId) (k : Caller) (s : State) :
    ∃ p, (s.resumeQueued cfg c k).calls = (s.setPhase c p).calls := by
  unfold resumeQueued
  dsimp only
  split
  · split <;> exact ⟨_, rfl⟩
  · exact calls_enter cfg c k.call { s with lock := s.lock.leave c }

theorem calls_stepTrip (cfg : Config) (t : TripId) (s : State) : (s.stepTrip cfg t).calls = s.calls := by
  unfold stepTrip
  split
  · unfold startTrip
    split
    · rfl
    · split <;> rfl
  · rfl
  · rfl

theorem calls_release (s : State) : s.release.calls = s.calls := by
  unfold release
  split <;> rfl

theorem calls_cancel (d : CallId) (s : State) :
    (s.cancel d).calls = s.calls ∨ (s.cancel d).calls = (s.flag d).calls := by
  unfold cancel
  split
  · exact .inl rfl
  · dsimp only
    split
    · exact .inl rfl
    · split <;> exact .inr rfl
    · split <;> exact .inr rfl
    · exact .inr rfl
    · exact .inr rfl

/-- What comes from outside makes one more call, asks for the cancellation of one, or leaves all alone. -/
theorem calls_act (s : State) (a : Action) : (s.act a).calls = s.calls ∨
    (∃ call : Call, (s.act a).calls = s.calls ++ [({ call } : Caller)]) ∨
      ∃ d, (s.act a).calls = (s.flag d).calls := by
  cases a with
  | call call => exact .inr (.inl ⟨call, rfl⟩)
  | cancel d => exact (calls_cancel d s).imp_right fun hFlag => .inr ⟨d, hFlag⟩
  | advance micros =>
      obtain ⟨clock, hAct⟩ := act_advance s micros
      exact .inl (by rw [hAct])
  | supply replies => exact .inl rfl
  | release => exact .inl (calls_release s)
  | rest => exact .inl rfl

/-- What comes from outside moves no call: it makes it, or asks for its cancellation. -/
theorem caller_act (s : State) (a : Action) (c : CallId) :
    (∃ k k', s.calls[c]? = some k ∧ (s.act a).calls[c]? = some k' ∧
        (k' = k ∨ k' = { k with cancelRequested := true })) ∨
      s.calls[c]? = none ∧
        ((s.act a).calls[c]? = none ∨ ∃ call : Call, (s.act a).calls[c]? = some { call }) := by
  cases hCall : s.calls[c]? with
  | some k =>
      refine .inl ⟨k, ?_⟩
      rcases calls_act s a with hSame | ⟨call, hNew⟩ | ⟨d, hFlag⟩
      · exact ⟨k, rfl, hSame ▸ hCall, .inl rfl⟩
      · refine ⟨k, rfl, ?_, .inl rfl⟩
        rw [hNew, List.getElem?_append_left (List.getElem?_eq_some_iff.mp hCall).1, hCall]
      · rw [hFlag]
        by_cases hd : c = d
        · exact ⟨_, rfl, hd ▸ calls_flag_self hCall, .inr rfl⟩
        · exact ⟨k, rfl, (calls_flag_ne hd).trans hCall, .inl rfl⟩
  | none =>
      refine .inr ⟨rfl, ?_⟩
      rcases calls_act s a with hSame | ⟨call, hNew⟩ | ⟨d, hFlag⟩
      · exact .inl (hSame ▸ hCall)
      · rw [hNew, List.getElem?_append_right (List.getElem?_eq_none_iff.mp hCall)]
        cases c - s.calls.length with
        | zero => exact .inr ⟨call, rfl⟩
        | succ n => exact .inl rfl
      · left
        rw [hFlag]
        by_cases hd : c = d
        · simp [flag, ← hd, hCall]
        · exact (calls_flag_ne hd).trans hCall

theorem caller_effect_stepCall (cfg : Config) (d : CallId) (hCall : s.calls[c]? = some k) :
    ∃ k', (s.stepCall cfg d).calls[c]? = some k' ∧ CallerEffect c s.trips k k' := by
  by_cases hd : d = c
  · subst hd
    -- the step of the call itself
    have hPhased {s' : State} {p : Phase} (hCalls : s'.calls = (s.setPhase d p).calls) :
        s'.calls[d]? = some { k with phase := p } := by
      rw [hCalls]
      exact calls_setPhase_self hCall p
    unfold stepCall
    rw [hCall]
    dsimp only
    cases hPhase : k.phase with
    | starting =>
        obtain ⟨p, hCalls⟩ := calls_startCall cfg d k s
        exact ⟨_, hPhased hCalls, .served (.inl hPhase) p rfl⟩
    | queued =>
        obtain ⟨p, hCalls⟩ := calls_resumeQueued cfg d k s
        exact ⟨_, hPhased hCalls, .served (.inr hPhase) p rfl⟩
    | waiting t =>
        cases hCancel : k.cancelRequested with
        | true => exact ⟨_, hPhased (calls_finishHolder d .cancelled s), .gaveUp t hPhase hCancel rfl⟩
        | false => exact ⟨k, hCall, .quiet rfl⟩
    | delivered o =>
        have hHanded (r : Result) (o' : Outcome) : ((s.hand d o').finishHolder d r).calls = (s.setPhase d (.finished r)).calls :=
          calls_finishHolder d r (s.hand d o')
        refine ⟨_, hPhased (hHanded _ _), .ended o hPhase ?_⟩
        cases k.cancelRequested <;> rfl
    | finished r => exact ⟨k, hCall, .quiet rfl⟩
  · have hOther {s' : State} {p : Phase} (hCalls : s'.calls = (s.setPhase d p).calls) :
        ∃ k', s'.calls[c]? = some k' ∧ CallerEffect c s.trips k k' := by
      refine ⟨k, ?_, .quiet rfl⟩
      rw [hCalls, calls_setPhase_ne (Ne.symm hd), hCall]
    unfold stepCall
    split
    · exact ⟨k, hCall, .quiet rfl⟩
    · next k' _ =>
        split
        · exact hOther (calls_startCall cfg d k' s).choose_spec
        · exact hOther (calls_resumeQueued cfg d k' s).choose_spec
        · split
          · exact hOther (calls_finishHolder d _ s)
          · exact ⟨k, hCall, .quiet rfl⟩
        · exact hOther (calls_finishHolder d _ (s.hand d _))
        · exact ⟨k, hCall, .quiet rfl⟩

theorem caller_effect_deliver (t : TripId) (d : CallId) (hCall : s.calls[c]? = some k) :
    ∃ k', (s.deliver t d).calls[c]? = some k' ∧ CallerEffect c s.trips k k' := by
  unfold deliver
  split
  · next call u o hWaits hTrip =>
      split
      · next hut =>
          subst hut
          by_cases hd : d = c
          · subst hd
            rw [hWaits, Option.some.injEq] at hCall
            subst hCall
            exact ⟨_, calls_setPhase_self hWaits _, .reached u o rfl rfl hTrip rfl⟩
          · exact ⟨k, (calls_setPhase_ne (Ne.symm hd) _).trans hCall, .quiet rfl⟩
      · exact ⟨k, hCall, .quiet rfl⟩
  · exact ⟨k, hCall, .quiet rfl⟩

/-- What one move can do to one call. -/
theorem caller_effect (cfg : Config) (m : Move) (hCall : s.calls[c]? = some k) :
    ∃ k', (s.move cfg m).calls[c]? = some k' ∧ CallerEffect c s.trips k k' := by
  have hQuiet {s' : State} (hCalls : s'.calls = s.calls) :
      ∃ k', s'.calls[c]? = some k' ∧ CallerEffect c s.trips k k' := ⟨k, hCalls ▸ hCall, .quiet rfl⟩
  cases m with
  | act a =>
      rcases caller_act s a c with ⟨k₀, k', hOld, hNew, hSame⟩ | ⟨hNone, _⟩
      · rw [hCall, Option.some.injEq] at hOld
        subst hOld
        refine ⟨k', hNew, ?_⟩
        rcases hSame with rfl | rfl
        · exact .quiet rfl
        · exact .flagged rfl
      · rw [hCall] at hNone
        contradiction
  | turn =>
      rw [State.move, turn]
      split
      · exact hQuiet rfl
      · next task rest _ =>
          cases task with
          | call d => exact caller_effect_stepCall (s := { s with ready := rest }) cfg d hCall
          | trip t => exact hQuiet (calls_stepTrip cfg t { s with ready := rest })
          | retire t =>
              refine hQuiet ?_
              rw [perform, retire]
              split <;> rfl
          | deliver t d => exact caller_effect_deliver (s := { s with ready := rest }) t d hCall

/-- Where a call stands that waited for a round trip. -/
inductive Awaited (s : State) (c : CallId) (t : TripId) (k : Caller) : Prop where
  | waiting (hPhase : k.phase = .waiting t)
  | delivered (o : Outcome) (hPhase : k.phase = .delivered o) (hTrip : s.trips[t]? = some (.finished o))
  | cancelled (hPhase : k.phase = .finished .cancelled) (hCancel : k.cancelRequested = true)
  | ended (o : Outcome) (hPhase : k.phase = .finished (resultOf c k.call o))
      (hTrip : s.trips[t]? = some (.finished o))

theorem Awaited.move (h : Awaited s c t k) (m : Move) (hCall : s.calls[c]? = some k) :
    ∃ k', (s.move cfg m).calls[c]? = some k' ∧ k'.call = k.call ∧ Awaited (s.move cfg m) c t k' := by
  obtain ⟨k', hCall', hEffect⟩ := caller_effect cfg m hCall
  refine ⟨k', hCall', ?_⟩
  cases hEffect with
  | quiet hSame =>
      subst hSame
      refine ⟨rfl, ?_⟩
      cases h with
      | waiting hPhase => exact .waiting hPhase
      | delivered o hPhase hTrip => exact .delivered o hPhase (finished_move m hTrip)
      | cancelled hPhase hCancel => exact .cancelled hPhase hCancel
      | ended o hPhase hTrip => exact .ended o hPhase (finished_move m hTrip)
  | flagged hSame =>
      subst hSame
      refine ⟨rfl, ?_⟩
      cases h with
      | waiting hPhase => exact .waiting hPhase
      | delivered o hPhase hTrip => exact .delivered o hPhase (finished_move m hTrip)
      | cancelled hPhase _ => exact .cancelled hPhase rfl
      | ended o hPhase hTrip => exact .ended o hPhase (finished_move m hTrip)
  | served hServed p hSame =>
      cases h with
      | waiting hPhase => simp [hPhase] at hServed
      | delivered o hPhase _ => simp [hPhase] at hServed
      | cancelled hPhase _ => simp [hPhase] at hServed
      | ended o hPhase _ => simp [hPhase] at hServed
  | gaveUp u hWaiting hCancel hSame =>
      subst hSame
      exact ⟨rfl, .cancelled rfl hCancel⟩
  | reached u o hWaiting hCancel hTrip hSame =>
      subst hSame
      refine ⟨rfl, ?_⟩
      cases h with
      | waiting hPhase =>
          have hut : u = t := Phase.waiting.inj (hWaiting.symm.trans hPhase)
          exact .delivered o rfl (finished_move m (hut ▸ hTrip))
      | delivered o' hPhase _ => simp [hWaiting] at hPhase
      | cancelled hPhase _ => simp [hWaiting] at hPhase
      | ended o' hPhase _ => simp [hWaiting] at hPhase
  | ended o hDelivered hSame =>
      subst hSame
      refine ⟨rfl, ?_⟩
      cases h with
      | waiting hPhase => simp [hDelivered] at hPhase
      | delivered o' hPhase hTrip =>
          have hoo : o' = o := Phase.delivered.inj (hPhase.symm.trans hDelivered)
          subst hoo
          cases hCancel : k.cancelRequested with
          | true => exact .cancelled rfl rfl
          | false => exact .ended o' rfl (finished_move m hTrip)
      | cancelled hPhase _ => simp [hDelivered] at hPhase
      | ended o' hPhase _ => simp [hDelivered] at hPhase

theorem Awaited.play (cfg : Config) (h : Awaited s c t k) (hCall : s.calls[c]? = some k) (moves : List Move) :
    ∃ k', (s.play cfg moves).calls[c]? = some k' ∧ k'.call = k.call ∧
      Awaited (s.play cfg moves) c t k' := by
  induction moves generalizing s k with
  | nil => exact ⟨k, hCall, rfl, h⟩
  | cons m moves ih =>
      obtain ⟨next, hNext, hSame, hAwaited⟩ := h.move m hCall
      obtain ⟨k', hCall', hSame', hAwaited'⟩ := ih hAwaited hNext
      exact ⟨k', hCall', hSame'.trans hSame, hAwaited'⟩

/-- Once nothing is left to do, the outcome of a round trip has reached the call that waited for it,
unless the call was cancelled or the request is still unanswered. -/
theorem Awaited.settled {key : RefreshKey} (h : Awaited s c t k) (hCoherent : Coherent cfg none s.ready s)
    (hReady : s.ready = []) (hSource : cfg.source = .refreshable key) (hCall : s.calls[c]? = some k)
    (hCancel : k.cancelRequested = false) :
    s.trips[t]? = some .sent ∨
      ∃ o, s.trips[t]? = some (.finished o) ∧ k.phase = .finished (resultOf c k.call o) := by
  have hPlaced := hCoherent.placed c k hCall (by simp)
  rw [hReady] at hPlaced hCoherent
  cases h with
  | waiting hPhase =>
      simp only [Placed, hPhase] at hPlaced
      obtain ⟨_, _, hLength, hDelivery⟩ := hPlaced
      have hTrip : s.trips[t]? = some s.trips[t] := List.getElem?_eq_getElem hLength
      cases hCase : s.trips[t] with
      | sent => exact .inl (hCase ▸ hTrip)
      | starting => simpa using hCoherent.going key hSource t _ hTrip (.inl hCase)
      | released => simpa using hCoherent.going key hSource t _ hTrip (.inr hCase)
      | finished o =>
          have hFinished : s.isFinished t = true := by
            rw [isFinished, hTrip, hCase]
            rfl
          simpa using hDelivery hCancel hFinished
  | delivered o hPhase _ => simp [Placed, hPhase] at hPlaced
  | cancelled _ hCancelled => simp [hCancel] at hCancelled
  | ended o hPhase hTrip => exact .inr ⟨o, hTrip, hPhase⟩

end Bearer.Cache.State
