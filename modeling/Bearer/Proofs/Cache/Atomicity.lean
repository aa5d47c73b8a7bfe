import Bearer.Proofs.Cache.Settlement
import Bearer.Proofs.Cache.SingleFlight
import Mathlib.Data.List.Induction

/-! The held token of a state is the one at the start, changed by the answers that the schedule took, one after the
other. -/

namespace Bearer

namespace Cache.Answer

/-- The grant whose token an answer leaves in the cache. -/
def stored? (nesting : Nat) (a : Answer) : Option Grant :=
  (a.reply.grant? nesting).filter (·.lifetime?.isSome)

/-- The token of a grant is stored, although its expiry lies beyond the calendar. -/
def Overruns (nesting : Nat) (a : Answer) (g : Grant) : Prop :=
  a.stored? nesting = some g ∧ g.expiry? a.now = none

end Cache.Answer

/-- The held token after an answer. -/
def HeldToken.after (nesting : Nat) (held : HeldToken) (a : Cache.Answer) : HeldToken :=
  match a.stored? nesting with
  | none => held
  | some g =>
    match g.expiry? a.now with
    | some expiry => ⟨some g.token, some expiry⟩
    | none => { held with token := some g.token }

theorem HeldToken.after_of_none {nesting : Nat} {held : HeldToken} {a : Cache.Answer}
    (hStored : a.stored? nesting = none) : held.after nesting a = held := by
  simp only [HeldToken.after, hStored]

/-- A grant that expires within the calendar is stored whole. -/
theorem HeldToken.after_of_expiry {nesting : Nat} (held : HeldToken) {a : Cache.Answer} {g : Grant}
    {expiry : Instant} (hGrant : a.reply.grant? nesting = some g) (hExpiry : g.expiry? a.now = some expiry) :
    held.after nesting a = ⟨some g.token, some expiry⟩ := by
  have hLifetime : g.lifetime?.isSome = true := by
    cases hNone : g.lifetime? with
    | none => rw [g.expiry?_of_no_lifetime a.now hNone] at hExpiry; contradiction
    | some _ => rfl
  have hStored : a.stored? nesting = some g := by
    rw [Cache.Answer.stored?, hGrant, Option.filter_some, if_pos hLifetime]
  simp only [HeldToken.after, hStored, hExpiry]

namespace Cache

/-- What `HeldToken.after` says is what an answer does. -/
theorem held_settlement (nesting : Nat) (margin : Duration) (key : RefreshKey) (held : HeldToken) (a : Answer) :
    (settlement nesting margin key a.now held a.reply).held = held.after nesting a := by
  cases hGrant : a.reply.grant? nesting with
  | none =>
      rw [(settlement_of_no_grant nesting margin key held hGrant).2, HeldToken.after_of_none]
      rw [Answer.stored?, hGrant, Option.filter_none]
  | some g =>
      rw [settlement_of_grant nesting margin key held hGrant]
      cases hExpiry : g.expiry? a.now with
      | some expiry =>
          rw [(store_of_expiry margin held hExpiry).2, HeldToken.after_of_expiry held hGrant hExpiry]
      | none =>
          rw [(store_of_overrun margin held hExpiry).2, HeldToken.after, Answer.stored?, hGrant,
            Option.filter_some]
          cases g.lifetime?.isSome with
          | true =>
              simp only [if_true]
              rw [hExpiry]
          | false => rfl

/-- A refresh that fails leaves the held token as it was, unless its grant overruns the calendar. -/
theorem after_of_failed {nesting : Nat} {margin : Duration} {key : RefreshKey} {held : HeldToken} {a : Answer}
    (hFailed : ∀ token, (settlement nesting margin key a.now held a.reply).outcome ≠ .token token) :
    held.after nesting a = held ↔ ¬∃ g, a.Overruns nesting g ∧ held.token ≠ some g.token := by
  cases hStored : a.stored? nesting with
  | none =>
      rw [HeldToken.after_of_none hStored]
      refine ⟨?_, fun _ => rfl⟩
      rintro - ⟨g, hOverruns, -⟩
      rw [Answer.Overruns, hStored] at hOverruns
      exact absurd hOverruns.1 (by simp)
  | some g =>
      have hGrant : a.reply.grant? nesting = some g := (Option.filter_eq_some_iff.mp hStored).1
      have hExpiry : g.expiry? a.now = none := by
        cases hExpiry : g.expiry? a.now with
        | none => rfl
        | some expiry =>
            refine absurd ?_ (hFailed g.token)
            rw [settlement_of_grant nesting margin key held hGrant]
            exact (store_of_expiry margin held hExpiry).1
      have hAfter : held.after nesting a = { held with token := some g.token } := by
        simp only [HeldToken.after, hStored, hExpiry]
      rw [hAfter]
      constructor
      · rintro hSame ⟨g', hOverruns, hToken⟩
        have hg : g' = g := Option.some.inj (hOverruns.1.symm.trans hStored)
        subst hg
        exact hToken (congrArg HeldToken.token hSame).symm
      · intro hNone
        have hToken : held.token = some g.token := by
          by_contra hToken
          exact hNone ⟨g, ⟨hStored, hExpiry⟩, hToken⟩
        rw [← hToken]

namespace State

variable {cfg : Config} {s : State} {t : TripId}

theorem held_move (cfg : Config) (s : State) (m : Move) :
    (s.move cfg m).held = (s.answer? cfg m).toList.foldl (HeldToken.after cfg.nesting) s.held := by
  cases m with
  | act a => exact (act_effect s a).1
  | turn =>
      have hEffect := turn_effect cfg s
      generalize s.answer? cfg .turn = answer at hEffect ⊢
      rw [State.move]
      cases hEffect with
      | quiet hStore _ => exact hStore.held
      | begun hStore _ _ => exact hStore.held
      | sent _ hStore _ _ => exact hStore.held
      | refused _ _ _ _ _ hStore _ _ => exact hStore.held
      | answered _ key _ answer _ _ _ _ _ _ _ hHeld _ =>
          rw [hHeld, held_settlement]
          rfl

/-- The held token is the one at the start, changed by the answers one after the other. -/
theorem held_play (cfg : Config) (s : State) (moves : List Move) :
    (s.play cfg moves).held = (s.answers cfg moves).foldl (HeldToken.after cfg.nesting) s.held := by
  induction moves generalizing s with
  | nil => rfl
  | cons m moves ih => rw [play_cons, ih, held_move, answers, List.foldl_append]

/-- The last grant that was stored tells the held token. -/
theorem foldl_after (nesting : Nat) (held : HeldToken) (answers : List Answer) :
    (answers.foldl (HeldToken.after nesting) held = held ∧ ∀ a ∈ answers, a.stored? nesting = none) ∨
      ∃ earlier a later g, answers = earlier ++ a :: later ∧ a.stored? nesting = some g ∧
        (∀ b ∈ later, b.stored? nesting = none) ∧
        answers.foldl (HeldToken.after nesting) held =
          (earlier.foldl (HeldToken.after nesting) held).after nesting a := by
  induction answers using List.reverseRecOn with
  | nil => exact .inl ⟨rfl, by simp⟩
  | append_singleton answers b ih =>
      rw [List.foldl_append, List.foldl_cons, List.foldl_nil]
      cases hStored : b.stored? nesting with
      | some g => exact .inr ⟨answers, b, [], g, rfl, hStored, by simp, rfl⟩
      | none =>
          rw [HeldToken.after_of_none hStored]
          have hLast : ∀ later : List Answer, (∀ x ∈ later, x.stored? nesting = none) →
              ∀ x ∈ later ++ [b], x.stored? nesting = none := by
            intro later hLater x hx
            rcases List.mem_append.mp hx with hx | hx
            · exact hLater x hx
            · rw [List.mem_singleton.mp hx]
              exact hStored
          rcases ih with ⟨hSame, hNone⟩ | ⟨earlier, a, later, g, rfl, ha, hLater, hHeld⟩
          · exact .inl ⟨hSame, hLast answers hNone⟩
          · exact .inr ⟨earlier, a, later ++ [b], g, by simp, ha, hLast later hLater, hHeld⟩

/-- Answers that store nothing leave the held token. -/
theorem held_play_of_none {moves : List Move} (h : ∀ b ∈ s.answers cfg moves, b.stored? cfg.nesting = none) :
    (s.play cfg moves).held = s.held := by
  rw [held_play]
  rcases foldl_after cfg.nesting s.held (s.answers cfg moves) with ⟨hSame, -⟩ | ⟨_, b, _, g, hMoves, hStored, -, -⟩
  · exact hSame
  · rw [h b (by simp [hMoves])] at hStored
    contradiction

/-- A move that leaves a round trip under way takes no answer. -/
theorem answer?_of_underWay (h : SingleFlight s) {m : Move} (hOpen : s.UnderWay t)
    (hStill : (s.move cfg m).UnderWay t) : s.answer? cfg m = none := by
  obtain ⟨trip, hTrip, hTripOpen⟩ := hOpen
  obtain ⟨trip', hTrip', hOpen'⟩ := hStill
  cases m with
  | act a => rfl
  | turn =>
      have hEffect := turn_effect cfg s
      generalize s.answer? cfg .turn = answer at hEffect ⊢
      rw [State.move] at hTrip'
      cases hEffect with
      | answered u key old a _ _ _ hOld hOldOpen _ _ _ hTrips =>
          -- only one round trip is under way, so the one that was answered is this one
          have hSame : u = t := by
            have hu := h.pending_of_unfinished u old hOld hOldOpen
            have ht := h.pending_of_unfinished t trip hTrip hTripOpen
            exact Option.some.inj (hu.symm.trans ht)
          subst hSame
          rw [hTrips, List.getElem?_set_self (List.getElem?_eq_some_iff.mp hOld).1,
            Option.some.injEq] at hTrip'
          subst hTrip'
          contradiction
      | _ => rfl

/-- A round trip that is under way later has not finished before. -/
theorem UnderWay.of_play {moves : List Move} {trip : Trip} (hTrip : s.trips[t]? = some trip)
    (hStill : (s.play cfg moves).UnderWay t) : s.UnderWay t := by
  refine ⟨trip, hTrip, ?_⟩
  cases trip with
  | finished o => exact absurd (finished_play moves hTrip) hStill.not_finished
  | _ => rfl

theorem trips_move {trip : Trip} (m : Move) (hTrip : s.trips[t]? = some trip) :
    ∃ trip', (s.move cfg m).trips[t]? = some trip' := by
  cases trip_effect cfg s m t with
  | quiet hSame => exact ⟨trip, hSame.trans hTrip⟩
  | begun _ hNew => exact ⟨_, hNew⟩
  | gone_on _ hNew => exact ⟨_, hNew.choose_spec.1⟩
  | ended o _ hNew _ => exact ⟨_, hNew⟩

/-- While a round trip is under way, the held token does not change. -/
theorem held_of_underWay (h : SingleFlight s) {moves : List Move} (hOpen : s.UnderWay t)
    (hStill : (s.play cfg moves).UnderWay t) : (s.play cfg moves).held = s.held := by
  induction moves generalizing s with
  | nil => rfl
  | cons m moves ih =>
      obtain ⟨next, hNext⟩ := trips_move m hOpen.choose_spec.1
      have hMove : (s.move cfg m).UnderWay t := UnderWay.of_play hNext hStill
      rw [play_cons, ih (h.move m) hMove hStill, held_move, answer?_of_underWay h hOpen hMove]
      rfl

/-- A refresh that fails, for whatever reason, leaves the held token as it was before, except when
its grant overruns the calendar and brings another token. After every schedule the held token is the
one at the start, or token and expiry of one grant; only where the last grant that was stored overran
the calendar it is that grant's token beside the expiry that was there before. -/
theorem held_of_failed_refresh (cfg : Config) (clock : Instant) (held : HeldToken)
    (replies : List Reply) (before : List Move) :
    let s := (start clock held replies).play cfg before
    let answers := (start clock held replies).answers cfg before
    (∀ t during m o, s.UnderWay t → (s.play cfg during).UnderWay t →
      ((s.play cfg during).move cfg m).trips[t]? = some (.finished o) →
      (∀ token, o ≠ .token token) →
      (((s.play cfg during).move cfg m).held = s.held ↔
        ¬∃ a g, (s.play cfg during).answer? cfg m = some a ∧ a.Overruns cfg.nesting g ∧
          s.held.token ≠ some g.token) ∧
      ∀ a g, (s.play cfg during).answer? cfg m = some a → a.Overruns cfg.nesting g →
        ((s.play cfg during).move cfg m).held = { s.held with token := some g.token }) ∧
    ((s.held = held ∧ ∀ a ∈ answers, a.stored? cfg.nesting = none) ∨
      ∃ earlier a later g, answers = earlier ++ a :: later ∧ a.stored? cfg.nesting = some g ∧
        (∀ b ∈ later, b.stored? cfg.nesting = none) ∧
        ((∃ expiry, g.expiry? a.now = some expiry ∧ s.held = ⟨some g.token, some expiry⟩) ∨
          a.Overruns cfg.nesting g ∧
            s.held = ⟨some g.token, (earlier.foldl (HeldToken.after cfg.nesting) held).expiresAt⟩)) := by
  intro s answers
  have h : SingleFlight s := (SingleFlight.start clock held replies).play before
  constructor
  · intro t during m o hOpen hStill hEnd hFailed
    have hDuring := held_of_underWay h hOpen hStill
    rw [held_move]
    constructor
    · cases ends_of_finished hEnd hStill.not_finished with
      | refused key fault _ _ hAnswer =>
          simp only [hAnswer, hDuring, Option.toList_none, List.foldl_nil, reduceCtorEq, false_and,
            exists_false, not_false_eq_true]
      | answered key a _ hAnswer =>
          have hAfter := after_of_failed hFailed
          rw [hDuring] at hAfter
          simp only [hAnswer, hDuring, Option.toList_some, List.foldl_cons, List.foldl_nil,
            Option.some.injEq, exists_and_left, exists_eq_left', hAfter]
    · intro a g hAnswer hOverruns
      simp only [hAnswer, hDuring, Option.toList_some, List.foldl_cons, List.foldl_nil,
        HeldToken.after, hOverruns.1, hOverruns.2]
  · have hHeld : s.held = answers.foldl (HeldToken.after cfg.nesting) held := held_play cfg _ before
    rcases foldl_after cfg.nesting held answers with ⟨hSame, hNone⟩ | ⟨earlier, a, later, g, hSplit, ha, hLater, hLast⟩
    · exact .inl ⟨hHeld.trans hSame, hNone⟩
    · refine .inr ⟨earlier, a, later, g, hSplit, ha, hLater, ?_⟩
      rw [hHeld, hLast]
      cases hExpiry : g.expiry? a.now with
      | some expiry => exact .inl ⟨expiry, rfl, by simp only [HeldToken.after, ha, hExpiry]⟩
      | none => exact .inr ⟨⟨ha, hExpiry⟩, by simp only [HeldToken.after, ha, hExpiry]⟩

/-- A request that is not completed leaves an expired token in its place. -/
theorem failed_transport_keeps_held :
    let cfg : Config := { source := .refreshable ⟨"R", "id", "s"⟩, url := Grant.defaultUrl, margin := .minute }
    let s := (start ⟨1704110400000000, by decide, by decide⟩ ⟨some "old", some ⟨0, by decide, by decide⟩⟩
      [.failed { message := "down" }]).play cfg [.act (.call .token), .turn]
    s.UnderWay 0 ∧ (s.move cfg .turn).trips[0]? =
        some (Trip.finished (.failed (.refreshFailed (.transport { message := "down" })))) ∧
      (s.move cfg .turn).held = s.held := by
  intro cfg s
  have hOpen : s.UnderWay 0 := ⟨.starting, rfl, rfl⟩
  have hEnd : (s.move cfg .turn).trips[0]? =
      some (Trip.finished (.failed (.refreshFailed (.transport { message := "down" })))) := rfl
  have hAnswer : s.answer? cfg .turn = some ⟨s.clock, .failed { message := "down" }⟩ := rfl
  have hKept := ((held_of_failed_refresh cfg _ _ _ [.act (.call .token), .turn]).1 0 [] .turn _
    hOpen hOpen hEnd (by simp)).1
  refine ⟨hOpen, hEnd, hKept.mpr ?_⟩
  rintro ⟨a, g, ha, hOverruns, _⟩
  have hSame := Option.some.inj (hAnswer.symm.trans ha)
  subst hSame
  simp [Answer.Overruns, Answer.stored?, Reply.grant?] at hOverruns

/-- A grant of 300000000000 seconds fails the refresh and leaves its token without an expiry. -/
theorem failed_refresh_stores_token :
    let cfg : Config := { source := .refreshable ⟨"R", "id", "s"⟩, url := Grant.defaultUrl, margin := .minute }
    let body := (Utf8.encode "\x7b\"access_token\":\"t\",\"expires_in\":300000000000\x7d").toOption.getD []
    let s := (start ⟨1704110400000000, by decide, by decide⟩ {} [.response { status := 200, body }]).play cfg
      [.act (.call .token), .turn]
    s.UnderWay 0 ∧ (s.move cfg .turn).trips[0]? = some (Trip.finished (.failed .outOfRange)) ∧
      s.held = {} ∧ (s.move cfg .turn).held = ⟨some "t", none⟩ := by
  intro cfg body s
  have hGrant : (Reply.grant? cfg.nesting (.response { status := 200, body })).map (fun g => (g.token, g.seconds)) =
      some (("t" : Text), 300000000000) := by decide +kernel +zetaReduce
  obtain ⟨hOutcome, hHeld⟩ := settlement_of_overrun cfg.nesting cfg.margin ⟨"R", "id", "s"⟩ s.held s.clock hGrant rfl
    rfl
  refine ⟨⟨.starting, rfl, rfl⟩, ?_, rfl, hHeld⟩
  exact congrArg (fun o => some (Trip.finished o)) hOutcome

end State

end Cache

end Bearer
