import Bearer.Proofs.Cache.Classification
import Bearer.Proofs.Cache.Trace
import Mathlib.Computability.Language

/-! The log of a cache is a sequence of episodes: a stored token is used, or a refresh starts and then fails or
succeeds, with a warning before a success that does not last longer than the margin. -/

namespace Bearer.Cache

open Computability

/-- A line of the log as its reader tells it from others: severity and message. -/
abbrev Line := Text × Text

def Note.line (n : Note) : Line := (n.level.name, n.message)

namespace Chronicle

def cached : Line := ("DEBUG", "Using cached Dropbox access token")

def started : Line := ("INFO", "Refreshing Dropbox access token")

def failed : Line := ("WARNING", "Dropbox token refresh failed")

def shortLived : Line := ("WARNING", "Dropbox access token lifetime is within the refresh margin")

def refreshed : Line := ("INFO", "Dropbox access token refreshed")

/-- How a refresh that has started can end. -/
def ends : Language Line := {[failed]} + (1 + {[shortLived]}) * {[refreshed]}

/-- The logs in which every refresh that has started has ended. -/
def language : Language Line := ({[cached]} + {[started]} * ends)∗

/-- Whether a line tells the end of a refresh. -/
def isEnd (l : Line) : Bool := l = failed || l = refreshed

theorem nil_mem : [] ∈ language := Language.nil_mem_kstar _

/-- A log can be continued by an episode. -/
theorem append_mem {word episode : List Line} (hWord : word ∈ language)
    (hEpisode : episode ∈ ({[cached]} + {[started]} * ends : Language Line)) : word ++ episode ∈ language := by
  have hLe : language * ({[cached]} + {[started]} * ends) ≤ language := kstar_mul_le_kstar
  exact hLe (Language.append_mem_mul hWord hEpisode)

theorem cached_mem {word : List Line} (hWord : word ∈ language) : word ++ [cached] ∈ language :=
  append_mem hWord (.inl rfl)

theorem ended_mem {word rest : List Line} (hWord : word ∈ language) (hEnd : rest ∈ ends) :
    word ++ started :: rest ∈ language :=
  append_mem hWord (.inr (Language.append_mem_mul (a := [started]) rfl hEnd))

theorem failed_mem : [failed] ∈ ends := .inl rfl

theorem refreshed_mem : [refreshed] ∈ ends :=
  .inr (Language.append_mem_mul (a := []) (.inl rfl) rfl)

theorem shortLived_mem : [shortLived, refreshed] ∈ ends :=
  .inr (Language.append_mem_mul (a := [shortLived]) (.inr rfl) rfl)

/-- Some lines show the end of a refresh, once and last, and no start. -/
structure Concludes (lines : List Line) (last : Line) : Prop where
  mem_ends : lines ∈ ends
  count_started : lines.count started = 0
  eq_concat : ∃ earlier, lines = earlier ++ [last] ∧ ∀ l ∈ earlier, isEnd l = false
  isEnd_last : isEnd last = true

theorem Concludes.countP_isEnd {lines : List Line} {last : Line} (h : Concludes lines last) :
    lines.countP isEnd = 1 := by
  obtain ⟨earlier, rfl, hEarlier⟩ := h.eq_concat
  have hNone : earlier.countP isEnd = 0 := List.countP_eq_zero.mpr fun l hl => by simp [hEarlier l hl]
  rw [List.countP_append, hNone, List.countP_cons_of_pos h.isEnd_last]
  rfl

theorem concludes_failed : Concludes [failed] failed :=
  ⟨failed_mem, by decide, ⟨[], rfl, by simp⟩, by decide⟩

theorem concludes_refreshed : Concludes [refreshed] refreshed :=
  ⟨refreshed_mem, by decide, ⟨[], rfl, by simp⟩, by decide⟩

theorem concludes_shortLived : Concludes [shortLived, refreshed] refreshed :=
  ⟨shortLived_mem, by decide, ⟨[shortLived], rfl, by decide⟩, by decide⟩

end Chronicle

/-- The line that tells how a round trip has ended. -/
def Outcome.line : Outcome → Line
  | .token _ => Chronicle.refreshed
  | .failed _ | .cancelled => Chronicle.failed

/-- The transport keeps its contract, a grant expires within the calendar, and no container is one too many. -/
structure Answer.InOrder (nesting : Nat) (a : Answer) : Prop where
  keeps : a.reply.KeepsContract
  expires : ∀ g, a.reply.grant? nesting = some g → (g.expiry? a.now).isSome = true
  shallow : ¬a.reply.TooDeep nesting

/-- What an answer that is in order leaves in the log is the end of a refresh. -/
theorem Answer.InOrder.concludes {nesting : Nat} {a : Answer} (h : a.InOrder nesting) (margin : Duration) (key : RefreshKey)
    (held : HeldToken) :
    Chronicle.Concludes ((settlement nesting margin key a.now held a.reply).notes.map Note.line)
      (settlement nesting margin key a.now held a.reply).outcome.line := by
  cases hGrant : a.reply.grant? nesting with
  | some g =>
      obtain ⟨expiry, hExpiry⟩ := Option.isSome_iff_exists.mp (h.expires g hGrant)
      rw [settlement_of_grant nesting margin key held hGrant]
      unfold store
      split
      · next hLifetime =>
          rw [g.expiry?_of_no_lifetime a.now hLifetime] at hExpiry
          contradiction
      · next lifetime hLifetime =>
          rw [g.expiry?_of_lifetime a.now hLifetime, hExpiry]
          unfold lifetimeNotes
          split
          · exact Chronicle.concludes_shortLived
          · exact Chronicle.concludes_refreshed
  | none =>
      have hKeeps := h.keeps
      cases hReply : a.reply with
      | response r =>
          rw [hReply] at hGrant
          simp only [settlement]
          split
          · next hSuccess =>
              cases hRead : Grant.read r.body nesting with
              | ok g => simp [Reply.grant?, hSuccess, hRead, Except.toOption] at hGrant
              | error refusal =>
                  cases refusal with
                  | malformed e => exact Chronicle.concludes_failed
                  | tooDeep container => exact absurd ⟨r, container, hReply, hSuccess, hRead⟩ h.shallow
          · exact Chronicle.concludes_failed
      | failed e => exact Chronicle.concludes_failed
      | _ => simp [hReply, Reply.KeepsContract] at hKeeps

/-- Whether a round trip has sent its request and not finished. -/
def Trip.isUnanswered : Trip → Bool
  | sent | released => true
  | starting | finished _ => false

theorem Trip.isFinished_of_isUnanswered {trip : Trip} (h : trip.isUnanswered = true) : trip.isFinished = false := by
  cases trip with
  | sent => rfl
  | released => rfl
  | starting => contradiction
  | finished o => contradiction

namespace State

variable {cfg : Config} {s s' : State} {t u : TripId} {o : Outcome}

/-- The lines that a run leaves. -/
def lines (s : State) : List Line := s.notes.map Note.line

theorem lines_of_trace {events : List Event} (hTrace : s'.trace = s.trace ++ events) :
    s'.lines = s.lines ++ (events.filterMap Event.note?).map Note.line := by
  rw [lines, notes_of_trace hTrace, List.map_append, lines]

/-- A request is sent and not answered. -/
def Unanswered (s : State) (t : TripId) : Prop := ∃ trip, s.trips[t]? = some trip ∧ trip.isUnanswered = true

theorem Unanswered.underWay (h : s.Unanswered t) : s.UnderWay t := by
  obtain ⟨trip, hTrip, hWaits⟩ := h
  exact ⟨trip, hTrip, Trip.isFinished_of_isUnanswered hWaits⟩

theorem unanswered_congr (hTrips : s'.trips = s.trips) : s'.Unanswered t ↔ s.Unanswered t := by
  rw [Unanswered, hTrips, Unanswered]

theorem unanswered_concat (hTrips : s'.trips = s.trips ++ [.starting]) : s'.Unanswered t ↔ s.Unanswered t := by
  rw [Unanswered, hTrips, List.getElem?_append, Unanswered]
  split
  · rfl
  · next hLength =>
      rw [List.getElem?_eq_none (Nat.le_of_not_lt hLength)]
      constructor
      · rintro ⟨trip, hTrip, hWaits⟩
        rw [List.mem_singleton.mp (List.mem_of_getElem? hTrip)] at hWaits
        contradiction
      · rintro ⟨trip, hTrip, -⟩
        contradiction

/-- The round trip under way is the one that can be joined. -/
theorem SingleFlight.joinable?_eq (h : SingleFlight s) (ht : s.UnderWay t) : s.joinable? = some t := by
  rw [joinable?, h.eq_of_underWay ht, Option.filter_some, ht.isFinished_eq]
  rfl

/-- No request waits while the round trip under way is in another state. -/
theorem SingleFlight.all_answered (h : SingleFlight s) {trip : Trip} (hTrip : s.trips[t]? = some trip)
    (hOpen : trip.isFinished = false) (hWaits : trip.isUnanswered = false) : ¬s.Unanswered u := by
  intro hu
  have hSame : u = t :=
    Option.some.inj ((h.joinable?_eq hu.underWay).symm.trans (h.joinable?_eq ⟨trip, hTrip, hOpen⟩))
  obtain ⟨other, hOther, hOtherAsked⟩ := hu
  rw [hSame, hTrip, Option.some.injEq] at hOther
  rw [← hOther, hWaits] at hOtherAsked
  contradiction

/-- A request that waits beside a round trip that has finished has waited before. -/
theorem Unanswered.of_finished (hTrips : s'.trips = s.trips.set t (.finished o)) (h : s'.Unanswered u) :
    t ≠ u ∧ s.Unanswered u := by
  obtain ⟨trip, hTrip, hWaits⟩ := h
  rw [hTrips, List.getElem?_set] at hTrip
  split at hTrip
  · split at hTrip
    · rw [← Option.some.inj hTrip] at hWaits
      contradiction
    · contradiction
  · next hOther => exact ⟨hOther, trip, hTrip, hWaits⟩

/-- Once the round trip under way has finished no request waits. -/
theorem SingleFlight.all_answered_of_finished (h : SingleFlight s) (ht : s.UnderWay t)
    (hTrips : s'.trips = s.trips.set t (.finished o)) : ¬s'.Unanswered u := by
  intro hu
  obtain ⟨hOther, hOld⟩ := hu.of_finished hTrips
  exact hOther (Option.some.inj ((h.joinable?_eq ht).symm.trans (h.joinable?_eq hOld.underWay)))

theorem unanswered_released (hOld : s.trips[t]? = some .sent) (hTrips : s'.trips = s.trips.set t .released) :
    s'.Unanswered u ↔ s.Unanswered u := by
  rw [Unanswered, hTrips, Unanswered]
  by_cases htu : t = u
  · subst htu
    rw [List.getElem?_set_self (List.getElem?_eq_some_iff.mp hOld).1, hOld]
    exact ⟨fun _ => ⟨.sent, rfl, rfl⟩, fun _ => ⟨.released, rfl, rfl⟩⟩
  · rw [List.getElem?_set_ne htu]

/-- What a move writes to the log, while answers are in order, with the requests that it sends and what it
does to the round trips. -/
inductive Writes (s s' : State) : Prop where
  | silent (hLines : s'.lines = s.lines) (hRequests : s'.requests.length = s.requests.length)
      (hTrips : s'.trips = s.trips ∨ s'.trips = s.trips ++ [.starting])
  | released (t : TripId) (hLines : s'.lines = s.lines) (hRequests : s'.requests.length = s.requests.length)
      (hOld : s.trips[t]? = some .sent) (hTrips : s'.trips = s.trips.set t .released)
  | reused (hLines : s'.lines = s.lines ++ [Chronicle.cached])
      (hRequests : s'.requests.length = s.requests.length) (hJoin : s.joinable? = none)
      (hTrips : s'.trips = s.trips)
  | sent (t : TripId) (hLines : s'.lines = s.lines ++ [Chronicle.started])
      (hRequests : s'.requests.length = s.requests.length + 1) (hOld : s.trips[t]? = some .starting)
      (hTrips : s'.trips = s.trips.set t .sent)
  /-- The request is sent and answered at once. -/
  | completed (t : TripId) (o : Outcome) (told : List Line) (hTold : Chronicle.Concludes told o.line)
      (hLines : s'.lines = s.lines ++ Chronicle.started :: told)
      (hRequests : s'.requests.length = s.requests.length + 1) (hOld : s.trips[t]? = some .starting)
      (hTrips : s'.trips = s.trips.set t (.finished o))
  | answered (t : TripId) (o : Outcome) (told : List Line) (hTold : Chronicle.Concludes told o.line)
      (hLines : s'.lines = s.lines ++ told) (hRequests : s'.requests.length = s.requests.length)
      (hOld : s.trips[t]? = some .released) (hTrips : s'.trips = s.trips.set t (.finished o))

theorem writes_call {events : List Event} (hTrace : s'.trace = s.trace ++ events)
    (h : CallTells cfg s s' events) : Writes s s' := by
  have hLines := lines_of_trace hTrace
  have hRequests := congrArg List.length (requests_of_trace hTrace)
  rw [List.length_append] at hRequests
  cases h with
  | nothing hTrips => exact .silent (hLines.trans (List.append_nil _)) hRequests (.inl hTrips)
  | ended c r hTrips => exact .silent (hLines.trans (List.append_nil _)) hRequests (.inl hTrips)
  | entered c k events _ _ hEntry =>
      cases hEntry with
      | unknown _ _ _ hTrips _ => exact .silent (hLines.trans (List.append_nil _)) hRequests (.inl hTrips)
      | reused _ hJoin _ hTrips _ => exact .reused hLines hRequests hJoin hTrips
      | joined _ _ hTrips _ => exact .silent (hLines.trans (List.append_nil _)) hRequests (.inl hTrips)
      | began _ _ hTrips _ => exact .silent (hLines.trans (List.append_nil _)) hRequests (.inr hTrips)

variable (hKey : ∀ key, cfg.source = .refreshable key → key.IsScalar)

include hKey in
theorem writes_turn (hAnswers : ∀ a, s.answer? cfg .turn = some a → a.InOrder cfg.nesting) : Writes s (s.turn cfg) := by
  obtain ⟨events, hTrace, hTells, -⟩ := continues_turn cfg s
  have hLines := lines_of_trace hTrace
  have hRequests := congrArg List.length (requests_of_trace hTrace)
  rw [List.length_append] at hRequests
  cases hTells with
  | call _ hCall => exact writes_call hTrace hCall
  | sent t key request _ _ hOld hTrips => exact .sent t hLines hRequests hOld hTrips
  | refused t key fault hSource hFault _ _ =>
      obtain ⟨request, hRequest⟩ := refreshRequest_of_isScalar cfg.url (hKey key hSource)
      rw [hRequest] at hFault
      contradiction
  | answeredAtOnce t key request a _ _ hOld hAnswer hTrips =>
      rw [List.filterMap_append, note?_arrived] at hLines
      rw [List.filterMap_append, request?_arrived] at hRequests
      exact .completed t _ _ ((hAnswers a hAnswer).concludes cfg.margin key s.held) hLines hRequests hOld hTrips
  | answered t key a _ hOld hAnswer hTrips =>
      rw [note?_arrived] at hLines
      rw [request?_arrived] at hRequests
      exact .answered t _ _ ((hAnswers a hAnswer).concludes cfg.margin key s.held) hLines hRequests hOld hTrips

include hKey in
theorem writes_move {m : Move} (hAnswers : ∀ a, s.answer? cfg m = some a → a.InOrder cfg.nesting) :
    Writes s (s.move cfg m) := by
  cases m with
  | turn => exact writes_turn hKey hAnswers
  | act a =>
      have hLines : (s.act a).lines = s.lines := by rw [lines, notes, trace_act, lines, notes]
      have hRequests : (s.act a).requests.length = s.requests.length := by rw [requests, trace_act, requests]
      obtain ⟨-, hTrips | ⟨t, hSent, hTrips⟩⟩ := act_effect s a
      · exact .silent hLines hRequests (.inl hTrips)
      · exact .released t hLines hRequests hSent hTrips

/-- The log is a sequence of episodes, and in the middle of one exactly if a request waits for its answer. -/
inductive Chronicled (s : State) : Prop where
  | idle (hLines : s.lines ∈ Chronicle.language) (hNone : ∀ t, ¬s.Unanswered t)
  | asked (word : List Line) (hWord : word ∈ Chronicle.language)
      (hLines : s.lines = word ++ [Chronicle.started]) (t : TripId) (hWaits : s.Unanswered t)

namespace Chronicled

theorem of_same (h : s.Chronicled) (hLines : s'.lines = s.lines)
    (hWaits : ∀ t, s'.Unanswered t ↔ s.Unanswered t) : s'.Chronicled := by
  cases h with
  | idle hOld hNone => exact .idle (hLines ▸ hOld) fun t ht => hNone t ((hWaits t).mp ht)
  | asked word hWord hOld t ht => exact .asked word hWord (hLines.trans hOld) t ((hWaits t).mpr ht)

theorem lines_of_idle (h : s.Chronicled) (hNone : ∀ t, ¬s.Unanswered t) : s.lines ∈ Chronicle.language := by
  cases h with
  | idle hLines _ => exact hLines
  | asked _ _ _ t ht => exact absurd ht (hNone t)

theorem lines_of_unanswered (h : s.Chronicled) (ht : s.Unanswered t) :
    ∃ word ∈ Chronicle.language, s.lines = word ++ [Chronicle.started] := by
  cases h with
  | idle _ hNone => exact absurd ht (hNone t)
  | asked word hWord hLines _ _ => exact ⟨word, hWord, hLines⟩

theorem of_writes (h : s.Chronicled) (hFlight : SingleFlight s) (hWrites : Writes s s') : s'.Chronicled := by
  cases hWrites with
  | silent hLines _ hTrips =>
      refine h.of_same hLines fun t => ?_
      rcases hTrips with hSame | hConcat
      · exact unanswered_congr hSame
      · exact unanswered_concat hConcat
  | released t hLines _ hOld hTrips => exact h.of_same hLines fun u => unanswered_released hOld hTrips
  | reused hLines _ hJoin hTrips =>
      have hNone : ∀ t, ¬s.Unanswered t := by
        intro t ht
        rw [hFlight.joinable?_eq ht.underWay] at hJoin
        contradiction
      refine .idle ?_ fun t ht => hNone t ((unanswered_congr hTrips).mp ht)
      rw [hLines]
      exact Chronicle.cached_mem (h.lines_of_idle hNone)
  | sent t hLines _ hOld hTrips =>
      have hWord := h.lines_of_idle fun u => hFlight.all_answered hOld rfl rfl
      refine .asked s.lines hWord hLines t ⟨.sent, ?_, rfl⟩
      rw [hTrips, List.getElem?_set_self (List.getElem?_eq_some_iff.mp hOld).1]
  | completed t o told hTold hLines _ hOld hTrips =>
      have hWord := h.lines_of_idle fun u => hFlight.all_answered hOld rfl rfl
      refine .idle ?_ fun u => hFlight.all_answered_of_finished ⟨_, hOld, rfl⟩ hTrips
      rw [hLines]
      exact Chronicle.ended_mem hWord hTold.mem_ends
  | answered t o told hTold hLines _ hOld hTrips =>
      obtain ⟨word, hWord, hAsked⟩ := h.lines_of_unanswered ⟨_, hOld, rfl⟩
      refine .idle ?_ fun u => hFlight.all_answered_of_finished ⟨_, hOld, rfl⟩ hTrips
      rw [hLines, hAsked, List.append_assoc]
      exact Chronicle.ended_mem hWord hTold.mem_ends

/-- What has been written is the beginning of a sequence of episodes. -/
theorem prefix_mem (h : s.Chronicled) : ∃ word ∈ Chronicle.language, s.lines <+: word := by
  cases h with
  | idle hLines _ => exact ⟨s.lines, hLines, List.prefix_rfl⟩
  | asked word hWord hLines _ _ =>
      refine ⟨word ++ [Chronicle.started, Chronicle.failed], Chronicle.ended_mem hWord Chronicle.failed_mem, ?_⟩
      exact ⟨[Chronicle.failed], by rw [hLines, List.append_assoc]; rfl⟩

end Chronicled

/-- Every request has its line, and every round trip that has finished has its end in the log. -/
structure Tally (s : State) : Prop where
  starts : s.lines.count Chronicle.started = s.requests.length
  ends : s.lines.countP Chronicle.isEnd = s.trips.countP (·.isFinished)

theorem countP_isFinished_set {trips : List Trip} {old new : Trip} (hOld : trips[t]? = some old)
    (hOpen : old.isFinished = false) :
    (trips.set t new).countP (·.isFinished) =
      trips.countP (·.isFinished) + if new.isFinished then 1 else 0 := by
  obtain ⟨hBound, rfl⟩ := List.getElem?_eq_some_iff.mp hOld
  rw [List.countP_set hBound, hOpen]
  rfl

theorem Tally.of_writes (h : s.Tally) (hWrites : Writes s s') : s'.Tally := by
  obtain ⟨hStarts, hEnds⟩ := h
  cases hWrites with
  | silent hLines hRequests hTrips =>
      refine ⟨by rw [hLines, hStarts, hRequests], ?_⟩
      rw [hLines, hEnds]
      rcases hTrips with hSame | hConcat
      · rw [hSame]
      · rw [hConcat, List.countP_append]
        rfl
  | released t hLines hRequests hOld hTrips =>
      refine ⟨by rw [hLines, hStarts, hRequests], ?_⟩
      rw [hLines, hEnds, hTrips, countP_isFinished_set hOld rfl]
      rfl
  | reused hLines hRequests _ hTrips =>
      constructor
      · rw [hLines, List.count_append, hStarts, hRequests]
        rfl
      · rw [hLines, List.countP_append, hEnds, hTrips]
        rfl
  | sent t hLines hRequests hOld hTrips =>
      constructor
      · rw [hLines, List.count_append, hStarts, hRequests]
        rfl
      · rw [hLines, List.countP_append, hEnds, hTrips, countP_isFinished_set hOld rfl]
        rfl
  | completed t o told hTold hLines hRequests hOld hTrips =>
      constructor
      · rw [hLines, List.count_append, List.count_cons, hTold.count_started, hStarts, hRequests]
        rfl
      · rw [hLines, List.countP_append, List.countP_cons, hTold.countP_isEnd, hEnds, hTrips,
          countP_isFinished_set hOld rfl]
        rfl
  | answered t o told hTold hLines hRequests hOld hTrips =>
      constructor
      · rw [hLines, List.count_append, hTold.count_started, hStarts, hRequests, Nat.add_zero]
      · rw [hLines, List.countP_append, hTold.countP_isEnd, hEnds, hTrips, countP_isFinished_set hOld rfl]
        rfl

/-- If one round trip changes and one ends, the change is its end. -/
theorem UnderWay.eq_finished_of_set (hOpen : s.UnderWay t) (hEnd : s'.trips[t]? = some (.finished o))
    {old new : Trip} (hOld : s.trips[u]? = some old) (hTrips : s'.trips = s.trips.set u new) :
    new = .finished o := by
  rw [hTrips] at hEnd
  rcases getElem?_set_cases (t := t) new hOld with hSame | ⟨-, hSet⟩
  · exact absurd (hSame.symm.trans hEnd) hOpen.not_finished
  · exact Option.some.inj (hSet.symm.trans hEnd)

/-- The move that ends a round trip writes the line that tells how, and no other such line. -/
theorem Writes.of_ended (h : Writes s s') (hOpen : s.UnderWay t) (hEnd : s'.trips[t]? = some (.finished o)) :
    ∃ earlier, s'.lines = s.lines ++ (earlier ++ [o.line]) ∧ ∀ l ∈ earlier, Chronicle.isEnd l = false := by
  cases h with
  | silent _ _ hTrips =>
      rcases hTrips with hSame | hConcat
      · rw [hSame] at hEnd
        exact absurd hEnd hOpen.not_finished
      · obtain ⟨trip, hTrip, -⟩ := id hOpen
        rw [hConcat, List.getElem?_append_left (List.getElem?_eq_some_iff.mp hTrip).1] at hEnd
        exact absurd hEnd hOpen.not_finished
  | reused _ _ _ hTrips =>
      rw [hTrips] at hEnd
      exact absurd hEnd hOpen.not_finished
  | released u _ _ hOld hTrips => cases hOpen.eq_finished_of_set hEnd hOld hTrips
  | sent u _ _ hOld hTrips => cases hOpen.eq_finished_of_set hEnd hOld hTrips
  | completed u o' told hTold hLines _ hOld hTrips =>
      cases hOpen.eq_finished_of_set hEnd hOld hTrips
      obtain ⟨earlier, rfl, hEarlier⟩ := hTold.eq_concat
      refine ⟨Chronicle.started :: earlier, hLines, fun l hl => ?_⟩
      rcases List.mem_cons.mp hl with rfl | hl
      · decide
      · exact hEarlier l hl
  | answered u o' told hTold hLines _ hOld hTrips =>
      cases hOpen.eq_finished_of_set hEnd hOld hTrips
      obtain ⟨earlier, rfl, hEarlier⟩ := hTold.eq_concat
      exact ⟨earlier, hLines, hEarlier⟩

include hKey in
theorem chronicled_play {moves : List Move} (h : s.Chronicled) (hTally : s.Tally) (hFlight : SingleFlight s)
    (hAnswers : s.Always cfg (fun u m => ∀ a, u.answer? cfg m = some a → a.InOrder cfg.nesting) moves) :
    (s.play cfg moves).Chronicled ∧ (s.play cfg moves).Tally := by
  induction moves generalizing s with
  | nil => exact ⟨h, hTally⟩
  | cons m moves ih =>
      have hWrites := writes_move hKey hAnswers.1
      exact ih (h.of_writes hFlight hWrites) (hTally.of_writes hWrites) (hFlight.move m) hAnswers.2

theorem map_line_stamped (stamp : Nat → Instant) (notes : List Note) :
    (notes.mapIdx fun i n => n.record (stamp i)).map (fun r => (r.severity, r.message)) =
      notes.map Note.line := by
  induction notes generalizing stamp with
  | nil => rfl
  | cons n notes ih =>
      rw [List.mapIdx_cons, List.map_cons, List.map_cons]
      exact congrArg (n.line :: ·) (ih fun i => stamp (i + 1))

/-- What a sink at the lowest severity of a cache gets is all that is written. -/
theorem lines_records {sink : Log.Sink} (hSink : sink.threshold = .debug) (stamp : Nat → Instant) (s : State) :
    (s.records sink stamp).map (fun r => (r.severity, r.message)) = s.lines := by
  have hAll : (s.notes.filter fun n => sink.accepts (.level n.level)) = s.notes := by
    rw [List.filter_eq_self]
    intro n _
    rw [Log.Sink.accepts, hSink]
    cases n <;> rfl
  rw [records, hAll]
  exact map_line_stamped stamp s.notes

/-- The log is a well-formed trace. Over a transport that keeps its contract, with a credential that can be
written and grants that expire within the calendar, the lines of every schedule begin a sequence of
episodes: a stored token is used, or a refresh starts and fails or succeeds. There is a start for every
request, and for every round trip that has finished the one line that tells how, written by the move that
ended it whatever became of its callers. -/
theorem log_is_chronicle (cfg : Config) (hKey : ∀ key, cfg.source = .refreshable key → key.IsScalar)
    (sink : Log.Sink) (hSink : sink.threshold = .debug) (stamp : Nat → Instant) (clock : Instant)
    (held : HeldToken) (replies : List Reply) (hReplies : ∀ reply ∈ replies, reply.KeepsContract)
    (moves : List Move) (hMoves : ∀ m ∈ moves, m.KeepsContract)
    (hDates : ∀ a ∈ (start clock held replies).answers cfg moves, ∀ g, a.reply.grant? cfg.nesting = some g →
      (g.expiry? a.now).isSome = true)
    (hShallow : ∀ a ∈ (start clock held replies).answers cfg moves, ¬a.reply.TooDeep cfg.nesting) :
    let first := start clock held replies
    let s := first.play cfg moves
    let log := (s.records sink stamp).map fun r => (r.severity, r.message)
    (∃ word ∈ Chronicle.language, log <+: word) ∧
      log.count Chronicle.started = s.requests.length ∧
      log.countP Chronicle.isEnd = s.trips.countP (·.isFinished) ∧
      ∀ (t : TripId) (o : Outcome), s.trips[t]? = some (.finished o) →
        first.Sometime cfg (fun u m => Finishes cfg t o u m ∧
          ∃ earlier, (u.move cfg m).lines = u.lines ++ (earlier ++ [o.line]) ∧
            ∀ l ∈ earlier, Chronicle.isEnd l = false) moves := by
  intro first s log
  have hLog : log = s.lines := lines_records hSink stamp s
  have hAnswers : first.Always cfg (fun u m => ∀ a, u.answer? cfg m = some a → a.InOrder cfg.nesting) moves :=
    always_of_answers fun a ha => ⟨keepsContract_answers hReplies hMoves a ha, hDates a ha, hShallow a ha⟩
  have hStart : first.Chronicled ∧ first.Tally :=
    ⟨.idle Chronicle.nil_mem fun t ⟨trip, hTrip, _⟩ => by contradiction, rfl, rfl⟩
  obtain ⟨hChronicled, hTally⟩ :=
    chronicled_play hKey hStart.1 hStart.2 (SingleFlight.start clock held replies) hAnswers
  refine ⟨hLog ▸ hChronicled.prefix_mem, hLog ▸ hTally.starts, hLog ▸ hTally.ends, ?_⟩
  intro t o hEnd
  have hSome : first.Sometime cfg (Finishes cfg t o) moves := by
    rcases finishes_of_play hEnd with hStart | hSome
    · contradiction
    · exact hSome
  refine hSome.and_always (hAnswers.imp fun u m hInOrder hFinishes => ⟨hFinishes, ?_⟩)
  exact (writes_move hKey hInOrder).of_ended hFinishes.opened hFinishes.finished

/-- The failure of a round trip whose caller was cancelled stands in the log, before a refresh that succeeds
and a use of its token. -/
theorem cancelled_failure_is_logged :
    let cfg : Config := { source := .refreshable ⟨"R", "id", "s"⟩, url := Grant.defaultUrl, margin := .minute }
    let clock : Instant := ⟨1704110400000000, by decide, by decide⟩
    let body := (Utf8.encode "\x7b\"access_token\":\"t\",\"expires_in\":3600\x7d").toOption.getD []
    let replies : List Reply := [.failed { message := "down" }, .response { status := 200, body }]
    let moves : List Move := [.act (.call .token), .turn, .act (.cancel 0), .turn, .turn, .turn, .turn,
      .act (.call .token), .turn, .turn, .turn, .turn, .turn, .act (.call .token), .turn]
    let s := (start clock {} replies).play cfg moves
    let log := (s.records ⟨true, .debug⟩ fun _ => clock).map fun r => (r.severity, r.message)
    s.result? 0 = some .cancelled ∧
      log = [Chronicle.started, Chronicle.failed, Chronicle.started, Chronicle.refreshed, Chronicle.cached] ∧
      (∃ word ∈ Chronicle.language, log <+: word) ∧ s.requests.length = 2 := by
  intro cfg clock body replies moves s log
  have hResult : s.result? 0 = some .cancelled := by
    dsimp only [cfg, body, replies, moves, s, clock]
    decide +kernel
  have hLines : log =
      [Chronicle.started, Chronicle.failed, Chronicle.started, Chronicle.refreshed, Chronicle.cached] := by
    dsimp only [cfg, body, replies, moves, s, clock, log]
    decide +kernel
  have hDates : ((start clock {} replies).answers cfg moves).all
      (fun a => (a.reply.grant? cfg.nesting).all fun g => (g.expiry? a.now).isSome) = true := by
    dsimp only [cfg, body, replies, moves, clock]
    decide +kernel
  have hKey : ∀ key, cfg.source = .refreshable key → key.IsScalar := by
    intro key hSource
    cases hSource
    exact ⟨by decide, by decide, by decide⟩
  have hReplies : ∀ reply ∈ replies, ¬reply.TooDeep cfg.nesting := by
    intro reply hMem
    rcases List.mem_cons.mp hMem with rfl | hMem
    · exact Reply.not_tooDeep_of_failed _ _
    · obtain rfl := List.mem_singleton.mp hMem
      refine Reply.not_tooDeep_of_grant ?_
      dsimp only [cfg, body]
      decide +kernel
  have hShallow : ∀ m ∈ moves, m.Supplies fun reply => ¬reply.TooDeep cfg.nesting := by
    simp [moves, Move.Supplies]
  obtain ⟨hPrefix, hStarts, -, -⟩ := log_is_chronicle cfg hKey ⟨true, .debug⟩ rfl (fun _ => clock) clock {} replies
    (by simp [replies, Reply.KeepsContract]) moves (by simp [moves, Move.KeepsContract])
    (fun a ha g hGrant => by simpa [hGrant] using List.all_eq_true.mp hDates a ha)
    (supplied_answers (not_tooDeep_default cfg.nesting) hReplies hShallow)
  refine ⟨hResult, hLines, hPrefix, hStarts.symm.trans ?_⟩
  rw [show List.count Chronicle.started log = _ from congrArg _ hLines]
  decide

/-- The round trip that a body of brackets ends which are only opened has no end in the log. -/
theorem brackets_leave_no_line :
    let cfg : Config := { source := .refreshable ⟨"R", "id", "s"⟩, url := Grant.defaultUrl, margin := .minute }
    let clock : Instant := ⟨1704110400000000, by decide, by decide⟩
    let reply : Reply := .response { status := 200, body := Json.brackets 100000 }
    let s := (start clock {} [reply]).play cfg [.act (.call .token), .turn, .turn]
    let log := (s.records ⟨true, .debug⟩ fun _ => clock).map fun r => (r.severity, r.message)
    reply.KeepsContract ∧ s.trips.countP (·.isFinished) = 1 ∧ log = [Chronicle.started] ∧
      log.countP Chronicle.isEnd = 0 := by
  intro cfg clock reply s log
  have hRun (reply : Reply) :
      let s := (start clock {} [reply]).play cfg [.act (.call .token), .turn, .turn]
      let settled := settlement cfg.nesting cfg.margin ⟨"R", "id", "s"⟩ clock {} reply
      s.trips = [.finished settled.outcome] ∧
        ∃ r, s.trace = [.acquired 0, .note (.started "id"), .request r] ++
          (settled.notes.map .note ++ [.arrived 0 settled.outcome]) := ⟨rfl, _, rfl⟩
  obtain ⟨hTrips, request, hTrace⟩ := hRun reply
  rw [settlement_of_brackets cfg.nesting _ _ _ _ (show cfg.nesting < 100000 by decide) (by decide)] at hTrips hTrace
  have hLog : log = [Chronicle.started] := by
    rw [show log = s.lines from lines_records rfl _ s, lines, notes, show s.trace = _ from hTrace]
    rfl
  refine ⟨trivial, ?_, hLog, ?_⟩
  · rw [show s.trips = _ from hTrips]
    rfl
  · rw [hLog]
    decide

end State

end Bearer.Cache
