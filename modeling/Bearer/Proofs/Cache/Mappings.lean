import Bearer.Proofs.Cache.Waiting

/-! A mapping holds what its sender gave, until the move that ends its call with a token sets the authorization in it.
No other call touches it. -/

namespace Bearer.Cache

/-- The fields that come with a call. -/
def Call.fields? : Call → Option Headers
  | .sign headers => some headers
  | .token | .refresh => none

/-- What the mapping of a call should hold: the fields that came with the call, or the signed ones. -/
def Caller.fields? (k : Caller) : Option Headers :=
  match k.phase with
  | .finished (.signed mapping) => some mapping.fields
  | _ => k.call.fields?

theorem Caller.fields?_eq {k : Caller} (hOpen : ∀ m, k.phase ≠ .finished (.signed m)) : k.fields? = k.call.fields? := by
  unfold fields?
  split
  · next m hSigned => exact absurd hSigned (hOpen m)
  · rfl

/-- A call that ends with a token tells what is set in its mapping. -/
theorem Caller.fields?_result (k : Caller) (c : CallId) (token : Text) :
    { k with phase := .finished (k.call.result c token) }.fields? = k.call.fields?.map (authorize token) := by
  obtain ⟨call, phase, cancelRequested⟩ := k
  cases call <;> rfl

namespace State

variable {cfg : Config} {s s' taken : State} {c d : CallId} {k : Caller}

/-- Every mapping holds what its call tells. -/
def Kept (s : State) : Prop := ∀ c, s.fields? c = (s.calls[c]?).bind Caller.fields?

theorem fields?_congr (hMappings : s'.mappings = s.mappings) (c : CallId) : s'.fields? c = s.fields? c := by
  rw [fields?, hMappings, fields?]

theorem Kept.of_same (h : s.Kept) (hCalls : s'.calls = s.calls) (hMappings : s'.mappings = s.mappings) : s'.Kept := by
  intro c
  rw [fields?_congr hMappings, hCalls]
  exact h c

/-- A token that reaches a call is set in the mapping of that call. -/
theorem fields?_hand (c d : CallId) (token : Text) (s : State) : (s.hand c (.token token)).fields? d =
    if d = c then (s.fields? d).map (authorize token) else s.fields? d := by
  have hOwner (m : Mapping) : (if m.owner = c then m.sign token else m).owner = m.owner := by split <;> rfl
  simp only [fields?, hand, Outcome.sign, List.find?_map, Function.comp_def, hOwner]
  cases hFind : s.mappings.find? (·.owner == d) with
  | none => simp
  | some m =>
      obtain rfl : m.owner = d := by simpa using List.find?_some hFind
      simp only [Option.map_some]
      split <;> rfl

/-- The step of a call moves that call on. Its mapping changes if the call ends with a token. -/
inductive Hands (c : CallId) (k : Caller) (s s' : State) : Prop where
  | nothing (p : Phase) (hPhase : ∀ m, p ≠ .finished (.signed m)) (hCalls : s'.calls = (s.setPhase c p).calls)
      (hMappings : s'.mappings = s.mappings)
  | token (t : Text) (hCalls : s'.calls = (s.setPhase c (.finished (k.call.result c t))).calls)
      (hMappings : s'.mappings = (s.hand c (.token t)).mappings)

theorem Hands.of_same (h : Hands c k taken s') (hCalls : taken.calls = s.calls)
    (hMappings : taken.mappings = s.mappings) : Hands c k s s' := by
  have hSet (p : Phase) : (taken.setPhase c p).calls = (s.setPhase c p).calls := by simp only [setPhase, hCalls]
  cases h with
  | nothing p hPhase hNext hSame => exact .nothing p hPhase (hNext.trans (hSet p)) (hSame.trans hMappings)
  | token t hNext hSigned =>
      refine .token t (hNext.trans (hSet _)) (hSigned.trans ?_)
      simp only [hand, hMappings]

theorem Hands.kept (h : Hands c k s s') (hKept : s.Kept) (hCall : s.calls[c]? = some k)
    (hOpen : ∀ m, k.phase ≠ .finished (.signed m)) : s'.Kept := by
  have hOwn : s.fields? c = k.call.fields? := by
    rw [hKept c, hCall]
    exact Caller.fields?_eq hOpen
  intro d
  cases h with
  | nothing p hPhase hCalls hMappings =>
      rw [fields?_congr hMappings, hCalls]
      by_cases hd : d = c
      · subst hd
        rw [calls_setPhase_self hCall, hOwn]
        exact (Caller.fields?_eq (k := { k with phase := p }) hPhase).symm
      · rw [calls_setPhase_ne hd]
        exact hKept d
  | token t hCalls hMappings =>
      rw [fields?_congr hMappings, hCalls, fields?_hand]
      by_cases hd : d = c
      · subst hd
        rw [if_pos rfl, calls_setPhase_self hCall, hOwn]
        exact (k.fields?_result d t).symm
      · rw [if_neg hd, calls_setPhase_ne hd]
        exact hKept d

theorem hands_awaitTrip (c : CallId) (k : Caller) (s : State) : Hands c k s (s.awaitTrip c) := by
  unfold awaitTrip
  split
  · exact .nothing _ (fun _ => by simp) rfl rfl
  · exact .nothing _ (fun _ => by simp) rfl rfl

theorem hands_enter (cfg : Config) (c : CallId) (k : Caller) (s : State) : Hands c k s (s.enter cfg c k.call) := by
  have hTaken : ({ s with lock := s.lock.take c }.observe [.acquired c]).dropFinished.calls = s.calls ∧
      ({ s with lock := s.lock.take c }.observe [.acquired c]).dropFinished.mappings = s.mappings := by
    rw [dropFinished_eq]
    exact ⟨rfl, rfl⟩
  unfold enter
  generalize ({ s with lock := s.lock.take c }.observe [.acquired c]).dropFinished = taken at hTaken
  refine Hands.of_same ?_ hTaken.1 hTaken.2
  dsimp only
  split
  · exact .nothing _ (fun _ => by simp) rfl rfl
  · exact .token _ rfl rfl
  · exact hands_awaitTrip c k taken

theorem hands_startCall (cfg : Config) (c : CallId) (k : Caller) (s : State) :
    Hands c k s (s.startCall cfg c k) := by
  unfold startCall
  split
  · exact .nothing _ (fun _ => by simp) rfl rfl
  · split
    · exact .token _ rfl rfl
    · split
      · exact hands_enter cfg c k s
      · exact .nothing _ (fun _ => by simp) rfl rfl

theorem hands_resumeQueued (cfg : Config) (c : CallId) (k : Caller) (s : State) :
    Hands c k s (s.resumeQueued cfg c k) := by
  unfold resumeQueued
  dsimp only
  split
  · split <;> exact .nothing _ (fun _ => by simp) rfl rfl
  · exact (hands_enter cfg c k { s with lock := s.lock.leave c }).of_same rfl rfl

/-- A call takes the outcome that has reached it. -/
theorem hands_outcome (c : CallId) (k : Caller) (o : Outcome) (s : State) :
    Hands c k s ((s.hand c o).finishHolder c (resultOf c k.call o)) := by
  cases o with
  | token t => exact .token t rfl rfl
  | failed e => exact .nothing _ (fun _ => by simp [resultOf]) rfl rfl
  | cancelled => exact .nothing _ (fun _ => by simp [resultOf]) rfl rfl

theorem Kept.stepCall (h : s.Kept) (cfg : Config) (c : CallId) : (s.stepCall cfg c).Kept := by
  unfold State.stepCall
  split
  · exact h
  · next k hCall =>
      split
      · next hPhase => exact (hands_startCall cfg c k s).kept h hCall (fun _ => by simp [hPhase])
      · next hPhase => exact (hands_resumeQueued cfg c k s).kept h hCall (fun _ => by simp [hPhase])
      · next hPhase =>
          split
          · exact (Hands.nothing (k := k) _ (fun _ => by simp) rfl rfl).kept h hCall (fun _ => by simp [hPhase])
          · exact h
      · next hPhase => exact (hands_outcome c k _ s).kept h hCall (fun _ => by simp [hPhase])
      · exact h

theorem mappings_stepTrip (cfg : Config) (t : TripId) (s : State) : (s.stepTrip cfg t).mappings = s.mappings := by
  unfold stepTrip
  split
  · unfold startTrip
    split
    · rfl
    · split <;> rfl
  · rfl
  · rfl

theorem Kept.turn (h : s.Kept) : (s.turn cfg).Kept := by
  unfold State.turn
  split
  · exact h
  · next task rest _ =>
      have hRest : ({ s with ready := rest } : State).Kept := h
      cases task with
      | call c => exact hRest.stepCall cfg c
      | trip t => exact hRest.of_same (calls_stepTrip cfg t _) (mappings_stepTrip cfg t _)
      | retire t =>
          rw [perform, retire]
          split <;> exact h
      | deliver t c =>
          rw [perform, deliver]
          split
          · next call u o hCall _ =>
              split
              · exact (Hands.nothing (k := ⟨call, .waiting u, false⟩) (.delivered o) (fun _ => by simp) rfl rfl).kept
                  hRest hCall (fun _ => by simp)
              · exact h
          · exact h

theorem mappings_cancel (c : CallId) (s : State) : (s.cancel c).mappings = s.mappings := by
  unfold cancel
  split
  · rfl
  · dsimp only
    split
    · rfl
    · split <;> rfl
    · split <;> rfl
    · rfl
    · rfl

/-- That a call is to be cancelled changes nothing of what it tells of its mapping. -/
theorem Kept.flag (h : s.Kept) (d : CallId) : (s.flag d).Kept := by
  intro c
  have hSame : (s.flag d).fields? c = s.fields? c := fields?_congr rfl c
  rw [hSame]
  by_cases hc : c = d
  · subst hc
    cases hCall : s.calls[c]? with
    | none => simp [State.flag, hCall, h c]
    | some k => rw [calls_flag_self hCall, h c, hCall]; rfl
  · rw [calls_flag_ne hc, h c]

/-- A new call brings its own mapping. -/
theorem Kept.call (h : s.Kept) (call : Call) : (s.act (.call call)).Kept := by
  intro c
  have hFields : (s.act (.call call)).fields? c =
      (s.fields? c).or (((call.mappings s.calls.length).find? (·.owner == c)).map (·.fields)) := by
    simp only [fields?, act, schedule, List.find?_append, Option.map_or]
  change _ = ((s.calls ++ [({ call } : Caller)])[c]?).bind Caller.fields?
  rw [hFields, h c]
  by_cases hOld : c < s.calls.length
  · have hNone : (call.mappings s.calls.length).find? (·.owner == c) = none := by
      cases call <;> simp [Call.mappings, Nat.ne_of_gt hOld]
    rw [List.getElem?_append_left hOld, hNone, Option.map_none, Option.or_none]
  · rw [List.getElem?_append_right (Nat.le_of_not_lt hOld), List.getElem?_eq_none (Nat.le_of_not_lt hOld)]
    rcases Nat.eq_or_lt_of_le (Nat.le_of_not_lt hOld) with rfl | hBeyond
    · cases call <;> simp [Call.mappings, Caller.fields?, Call.fields?]
    · have hNone : (call.mappings s.calls.length).find? (·.owner == c) = none := by
        cases call <;> simp [Call.mappings, Nat.ne_of_lt hBeyond]
      rw [hNone, List.getElem?_eq_none (by simp; omega)]
      rfl

theorem Kept.act (h : s.Kept) (a : Action) : (s.act a).Kept := by
  cases a with
  | call call => exact h.call call
  | cancel d =>
      rcases calls_cancel d s with hSame | hFlag
      · exact h.of_same hSame (mappings_cancel d s)
      · exact (h.flag d).of_same hFlag (mappings_cancel d s)
  | advance micros =>
      obtain ⟨clock, hAct⟩ := act_advance s micros
      rw [hAct]
      exact h
  | supply replies => exact h
  | release =>
      rw [State.act, release]
      split <;> exact h
  | rest => exact h

/-- After every schedule the mappings hold what their calls tell. -/
theorem kept_play (cfg : Config) (clock : Instant) (held : HeldToken) (replies : List Reply) (moves : List Move) :
    ((start clock held replies).play cfg moves).Kept := by
  refine play_invariant (P := Kept) (fun c => rfl) (fun s m h => ?_) moves
  cases m with
  | act a => exact h.act a
  | turn => exact h.turn

end State

end Bearer.Cache
