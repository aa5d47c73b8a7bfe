import Bearer.Proofs.Except
import Bearer.Proofs.Log.Line
import Bearer.Proofs.Log.Loggers

/-! However often the log was configured, the last time counts: one sink is left, and one handler at each logger of
the HTTP client. -/

namespace Bearer

theorem Text.flatMap_splitOn (separator : CodePoint) (t : Text) :
    (splitOn separator t).flatMap (fun line => line ++ [separator]) = t ++ [separator] := by
  induction t with
  | nil => rfl
  | cons c rest ih =>
      rw [splitOn]
      split
      · next hSame => rw [List.flatMap_cons, ih, hSame]; rfl
      · split
        · next hNone => exact absurd hNone (splitOn_ne_nil separator rest)
        · next first pieces hPieces =>
            rw [hPieces, List.flatMap_cons] at ih
            rw [List.flatMap_cons, List.cons_append, List.cons_append, ih, List.cons_append]

namespace Log

/-- A text without braces. -/
def BraceFree (t : Text) : Prop := ∀ c ∈ t, c ≠ .scalar '{' ∧ c ≠ .scalar '}'

/-- The name that the level of a standard entry is shown with. -/
def standardLabel (n : Int) : Text :=
  if n = 10 then "DEBUG"
  else if n = 20 then "INFO"
  else if n = 30 then "WARNING"
  else if n = 40 then "ERROR"
  else if n = 50 then "CRITICAL"
  else ("Level " : Text) ++ Decimal.ofInt n

namespace Entry

/-- The number of the level of an entry. -/
def rank? : Entry → Option Int
  | named level _ _ => (Level.ofName? level).map fun l => (l.number : Int)
  | numbered level _ _ => some level
  | standard _ level _ _ _ => some level

/-- The name that the level is shown with. -/
def label : Entry → Text
  | named level _ _ => level
  | numbered level _ _ => ("Level " : Text) ++ Decimal.ofInt level
  | standard _ level _ _ _ => standardLabel level

/-- The text of an entry: its message, with the arguments in their places. -/
def text? : Entry → Option Text
  | named _ message _ => some message
  | numbered _ message _ => some message
  | standard _ _ message arguments _ => (Template.percent arguments message).toOption

/-- The standard logger that an entry is made through. -/
def logger? : Entry → Option Text
  | named _ _ _ => none
  | numbered _ _ _ => none
  | standard name _ _ _ _ => some name

/-- The values passed with the message. -/
def passed : Entry → Option (Entries Datum)
  | named _ _ extra => extra
  | numbered _ _ extra => extra
  | standard _ _ _ _ _ => none

/-- The exception that is told with the message. -/
def exception? : Entry → Option Exception
  | named _ _ _ => none
  | numbered _ _ _ => none
  | standard _ _ _ _ exception => exception.map fun held => ⟨some .value, some (.value, held), none, none⟩

/-- An entry that can be made: its level is one, and its message has no braces or fits its arguments. -/
inductive Valid : Entry → Prop where
  | named (l : Level) (message : Text) (extra : Option (Entries Datum)) (hFree : BraceFree message) :
      Valid (.named l.name message extra)
  | numbered (n : Nat) (message : Text) (extra : Option (Entries Datum)) (hFree : BraceFree message) :
      Valid (.numbered n message extra)
  | standard (name : Text) (level : Int) (message : Text) (arguments : List Datum) (exception : Option Text)
      (text : Text) (hText : Template.percent arguments message = .ok text) :
      Valid (.standard name level message arguments exception)

/-- An entry is accepted if its level is at least the threshold and its logger, if it has one, is served. -/
def passes (threshold : Level) (serves : Text → Bool) (e : Entry) : Bool :=
  e.rank?.any (fun n => (threshold.number : Int) ≤ n) && e.logger?.all serves

/-- The member of a line that shows a text of the entry, unless a value is passed under its name. -/
def shown (e : Entry) (name : Text) (own : Text) : Json :=
  ((Entries.get? name (e.passed.getD []).reverse).map Datum.toJson).getD (.string own)

end Entry

/-- The record of an emission with a text. -/
def Emission.record (e : Emission) (text : Text) : Record where
  severity := e.entry.label
  message := text
  time := e.time
  logger := if e.entry.logger?.isSome then standardOrigin else e.origin
  exception := e.entry.exception?
  extra := (e.entry.passed.map fun entries => (("extra" : Text), Datum.mapping entries)).toList

/-- A delivery writes an emission: its text as it is, on one of the two streams. -/
structure Shows (production : Bool) (e : Emission) (d : Delivery) : Prop where
  text : e.entry.text? = some d.record.message
  record : d.record = e.record d.record.message
  message : d.record.members.get? "message" = some (e.entry.shown "message" d.record.message)
  severity : d.record.members.get? "severity" = some (e.entry.shown "severity" e.entry.label)
  output : d.output = if production then Json.compact (.object d.record.members) ++ ("\n" : Text) else []
  errors : ∀ clock, d.errors clock = if production then [] else
    clock e.time ++ (" | " : Text) ++ e.entry.label.padEnd 8 ++ (" | " : Text) ++ d.record.message ++ ("\n" : Text)
      ++ (e.entry.exception?.map fun told => told.traceback?.getD told.summary ++ ("\n" : Text)).getD []

/-- The emissions that are accepted, in order. A logger that an entry is made through is there from then on. -/
def heard (threshold : Level) : Routes → List Emission → List Emission
  | _, [] => []
  | r, e :: es =>
    let r := r.meet e.entry
    if e.entry.passes threshold (r.loggers.isUnder clientLoggers) then e :: heard threshold r es
    else heard threshold r es

theorem get?_members (e : Emission) (text key : Text) : (e.record text).members.get? key =
    ((Entries.get? key (e.entry.passed.getD []).reverse).map Datum.toJson).or ((e.record text).head.get? key) := by
  rw [Record.members_of_passed _ rfl, Entries.get?_putAll, Datum.toJsonMembers_eq_map, ← List.map_reverse,
    Entries.get?_map Datum.toJson]

theorem get?_members_of_head {e : Emission} {text key own : Text}
    (hOwn : (e.record text).head.get? key = some (.string own)) :
    (e.record text).members.get? key = some (e.entry.shown key own) := by
  rw [get?_members, hOwn, Entry.shown]
  cases Entries.get? key (e.entry.passed.getD []).reverse <;> rfl

theorem shows_record {e : Emission} {text : Text} (hText : e.entry.text? = some text) (production : Bool) :
    Shows production e ⟨production, e.record text⟩ where
  text := hText
  record := rfl
  message := get?_members_of_head rfl
  severity := get?_members_of_head rfl
  output := rfl
  errors clock := by
    unfold Delivery.errors
    cases production with
    | true => rfl
    | false =>
        simp only [Bool.false_eq_true, if_false, Record.console, List.flatMap_append]
        rw [show Text.ofString "\n" = [.scalar '\n'] from rfl, Text.flatMap_splitOn]
        cases hException : e.entry.exception? with
        | none => simp [Emission.record, hException]
        | some told => simp [Emission.record, hException, Text.flatMap_splitOn]

theorem Level.number_of_ofStandardNumber? {n : Int} {l : Level} (hFound : ofStandardNumber? n = some l) :
    (l.number : Int) = n := by
  have hBoth := List.find?_some hFound
  simp only [Bool.and_eq_true, beq_iff_eq] at hBoth
  exact hBoth.2

theorem rank_standardSeverity (n : Int) : (standardSeverity n).rank = n.toNat := by
  unfold standardSeverity
  split
  · next l hFound => rw [← Level.number_of_ofStandardNumber? hFound, Int.toNat_natCast]; rfl
  · rfl

theorem label_standardSeverity {n : Int} (hNonneg : 0 ≤ n) : (standardSeverity n).label = standardLabel n := by
  rw [standardSeverity]
  split
  · next l hFound =>
      have hStandard := List.find?_some hFound
      simp only [Bool.and_eq_true, beq_iff_eq] at hStandard
      obtain ⟨hStandard, rfl⟩ := hStandard
      cases l with
      | trace | success => cases hStandard
      | debug | info | warning | error | critical => rfl
  · next hNone =>
      have hOther : ∀ l : Level, l.isStandard = true → n ≠ l.number := by
        intro l hStandard hSame
        have hMem : l ∈ Level.all := by cases l <;> decide
        have hNot := List.find?_eq_none.mp hNone l hMem
        simp [hStandard, hSame] at hNot
      obtain ⟨m, rfl⟩ := Int.eq_ofNat_of_zero_le hNonneg
      have hDebug : (m : Int) ≠ 10 := hOther .debug rfl
      have hInfo : (m : Int) ≠ 20 := hOther .info rfl
      have hWarning : (m : Int) ≠ 30 := hOther .warning rfl
      have hError : (m : Int) ≠ 40 := hOther .error rfl
      have hCritical : (m : Int) ≠ 50 := hOther .critical rfl
      rw [standardLabel, if_neg hDebug, if_neg hInfo, if_neg hWarning, if_neg hError, if_neg hCritical]
      rfl

theorem Braces.fill_of_braceFree (named : Entries Datum) (depth : Nat) {t : Text} (hFree : BraceFree t)
    {fuel : Nat} (hFuel : t.length ≤ fuel) : fill named (depth + 1) fuel t = .ok t := by
  induction t generalizing fuel with
  | nil => cases fuel <;> rw [fill]
  | cons c t ih =>
      obtain ⟨⟨hOpening, hClosing⟩, hRest⟩ := List.forall_mem_cons.mp hFree
      cases fuel with
      | zero => cases hFuel
      | succ fuel =>
          rw [fill, ih hRest (Nat.le_of_succ_le_succ hFuel)]
          · rfl
          all_goals simp [hOpening, hClosing]

theorem directMessage_of_braceFree {message : Text} (hFree : BraceFree message)
    (extra : Option (Entries Datum)) : directMessage message extra = .ok message := by
  cases extra with
  | none => rfl
  | some entries =>
      rw [directMessage, Braces.message, Braces.fill_of_braceFree _ 1 hFree (Nat.le_refl _)]
      rfl

namespace Routes

/-- Configures the log several times, whatever comes of it. -/
def reconfigure (calls : List (Bool × Text)) (r : Routes) : Routes :=
  calls.foldl (fun r call => (r.configure call.1 call.2).1) r

/-- The log as a configuration leaves it: with one sink, and listening to the loggers of the client. -/
structure Ready (sink : Sink) (r : Routes) : Prop where
  sinks : r.sinks = [sink]
  deaf : r.deaf = false
  loggers : r.loggers.Listening clientLoggers sink.threshold.number

variable {r : Routes} {sink : Sink}

theorem bare_listen {ls : Loggers} (h : ls.Bare clientLoggers) (level : Level) {names : List Text}
    (hNames : ∀ name ∈ names, name ∈ clientLoggers) : (listen level names ls).1.Bare clientLoggers := by
  induction names generalizing ls with
  | nil => exact h
  | cons name names ih =>
      obtain ⟨hName, hRest⟩ := List.forall_mem_cons.mp hNames
      rw [listen]
      split
      · exact ih (h.put (.inl hName)) hRest
      · exact h.touch name

/-- Configuring the log sets nothing for other loggers, also where it fails. -/
theorem bare_configure (h : r.loggers.Bare clientLoggers) (production : Bool) (level : Text) :
    (r.configure production level).1.loggers.Bare clientLoggers := by
  unfold configure
  split
  · exact h
  · exact bare_listen h _ fun _ hName => hName

theorem bare_reconfigure (h : r.loggers.Bare clientLoggers) (calls : List (Bool × Text)) :
    (r.reconfigure calls).loggers.Bare clientLoggers := by
  induction calls generalizing r with
  | nil => exact h
  | cons call calls ih => exact ih (bare_configure h call.1 call.2)

/-- A level that the standard loggers know is set for all the loggers. -/
theorem listen_of_standard {level : Level} (hStandard : level.isStandard = true) (names : List Text)
    (ls : Loggers) : (listen level names ls).2 = none ∧ ∀ name, (listen level names ls).1.get? name
      = if name ∈ names then some ⟨some level.number, 1⟩ else ls.get? name := by
  induction names generalizing ls with
  | nil => exact ⟨rfl, fun name => rfl⟩
  | cons first names ih =>
      rw [listen, if_pos hStandard]
      obtain ⟨hNone, hGet⟩ := ih (ls.put first ⟨some level.number, 1⟩)
      refine ⟨hNone, fun name => ?_⟩
      rw [hGet]
      by_cases hFirst : name = first
      · simp [hFirst, Entries.get?_put]
      · simp [hFirst, Entries.get?_put_of_ne _ ls hFirst]

/-- A configuration with such a level succeeds and leaves the log ready, whatever it was before. -/
theorem configure_of_standard (h : r.loggers.Bare clientLoggers) (production : Bool) {level : Level}
    (hStandard : level.isStandard = true) : (r.configure production level.name).2 = none ∧
      Ready ⟨production, level⟩ (r.configure production level.name).1 := by
  have hBare := bare_configure h production level.name
  obtain ⟨hNone, hGet⟩ := listen_of_standard hStandard clientLoggers r.loggers
  have hConfigure : r.configure production level.name = ({
      sinks := [⟨production, level⟩], deaf := false
      loggers := (listen level clientLoggers r.loggers).1 }, none) := by
    rw [configure, Level.ofName?_name]
    exact Prod.ext rfl hNone
  rw [hConfigure] at hBare ⊢
  exact ⟨rfl, {
    sinks := rfl
    deaf := rfl
    loggers := ⟨fun name hName => by rw [hGet, if_pos hName], hBare⟩ }⟩

namespace Ready

theorem write (h : r.Ready sink) (severity : Severity) (record : Record) :
    r.write severity record = if sink.accepts severity then [⟨sink.production, record⟩] else [] := by
  rw [Routes.write, h.sinks, List.filter_singleton]
  cases sink.accepts severity <;> rfl

theorem direct (h : r.Ready sink) (severity : Severity) {message : Text} (hFree : BraceFree message)
    (extra : Option (Entries Datum)) (time : Timestamp) (origin : Text) :
    r.direct severity message extra time origin = .ok (if sink.accepts severity then [⟨sink.production, {
      severity := severity.label, message, time, logger := origin,
      extra := (extra.map fun entries => (("extra" : Text), Datum.mapping entries)).toList }⟩] else []) := by
  unfold Routes.direct
  rw [h.sinks, List.any_cons, List.any_nil, Bool.or_false]
  cases hAccepts : sink.accepts severity with
  | false => rfl
  | true =>
      rw [if_pos rfl, directMessage_of_braceFree hFree]
      refine congrArg Except.ok ((h.write severity _).trans ?_)
      rw [hAccepts]
      cases extra <;> rfl

theorem hears (h : r.Ready sink) (origin : Text) : r.hears origin = true := by
  rw [Routes.hears, h.sinks, h.deaf]
  rfl

/-- An entry of a standard logger that is served is written from the threshold up, and no other one is. -/
theorem standard (h : r.Ready sink) (name : Text) (level : Int) {message : Text} {arguments : List Datum}
    (exception : Option Text) (time : Timestamp) {text : Text}
    (hText : Template.percent arguments message = .ok text) :
    r.standard name level message arguments exception time = .ok (
      if (sink.threshold.number : Int) ≤ level ∧ r.loggers.isUnder clientLoggers name = true then
        [⟨sink.production, {
          severity := standardLabel level, message := text, time, logger := standardOrigin,
          exception := exception.map fun held => ⟨some .value, some (.value, held), none, none⟩ }⟩]
      else []) := by
  have hRoots : ∀ root ∈ clientLoggers, Loggers.point ∉ root := by decide
  obtain ⟨hHandlers, hThreshold⟩ := h.loggers.serves hRoots name
  unfold Routes.standard
  cases hUnder : r.loggers.isUnder clientLoggers name with
  | false =>
      rw [hUnder, if_neg Bool.false_ne_true] at hHandlers
      rw [if_pos (.inr hHandlers), if_neg (by simp)]
  | true =>
      rw [hUnder, if_pos rfl] at hHandlers
      rw [hThreshold hUnder, hHandlers]
      by_cases hLow : level < sink.threshold.number
      · rw [if_pos (.inl hLow), if_neg (fun hBoth => absurd hLow (Int.not_lt.mpr hBoth.1))]
      · have hHigh : (sink.threshold.number : Int) ≤ level := Int.not_lt.mp hLow
        have hNonneg : 0 ≤ level := Int.le_trans (Int.natCast_nonneg _) hHigh
        have hAccepts : sink.accepts (standardSeverity level) = true := by
          rw [Sink.accepts, rank_standardSeverity, decide_eq_true_eq]
          omega
        rw [if_neg (by simp [hLow]), if_pos ⟨hHigh, rfl⟩, hText, ← label_standardSeverity hNonneg]
        refine congrArg Except.ok ?_
        rw [h.write, hAccepts]
        rfl

/-- An entry that can be made is written once if it is accepted, and else not at all. -/
theorem emit (h : r.Ready sink) {e : Emission} (hValid : e.entry.Valid) : ∃ text, e.entry.text? = some text ∧
    r.emit e = .ok (if e.entry.passes sink.threshold (r.loggers.isUnder clientLoggers) then
      [⟨sink.production, e.record text⟩] else []) := by
  obtain ⟨time, origin, entry⟩ := e
  cases hValid with
  | named l message extra hFree =>
      refine ⟨message, rfl, ?_⟩
      have hPasses : (Entry.named l.name message extra).passes sink.threshold (r.loggers.isUnder clientLoggers)
          = sink.accepts (.level l) := by
        simp only [Entry.passes, Entry.rank?, Entry.logger?, Level.ofName?_name, Option.map_some, Option.any_some,
          Option.all_none, Bool.and_true]
        exact decide_eq_decide.mpr Int.ofNat_le
      simp only [Routes.emit, h.hears, if_true, Level.ofName?_name, h.direct _ hFree, hPasses]
      rfl
  | numbered n message extra hFree =>
      refine ⟨message, rfl, ?_⟩
      have hPasses : (Entry.numbered n message extra).passes sink.threshold (r.loggers.isUnder clientLoggers)
          = sink.accepts (.number n) := by
        simp only [Entry.passes, Entry.rank?, Entry.logger?, Option.any_some, Option.all_none, Bool.and_true]
        exact decide_eq_decide.mpr Int.ofNat_le
      have hNonneg : ¬(n : Int) < 0 := Int.not_lt.mpr (Int.natCast_nonneg n)
      simp only [Routes.emit, h.hears, if_true, if_neg hNonneg, Int.toNat_natCast, h.direct _ hFree, hPasses]
      rfl
  | standard name level message arguments exception text hText =>
      refine ⟨text, by rw [Entry.text?, hText]; rfl, ?_⟩
      have hPasses : (Entry.standard name level message arguments exception).passes sink.threshold
          (r.loggers.isUnder clientLoggers) = true ↔
            (sink.threshold.number : Int) ≤ level ∧ r.loggers.isUnder clientLoggers name = true := by
        simp [Entry.passes, Entry.rank?, Entry.logger?]
      simp only [Routes.emit, h.standard name level exception time hText, hPasses]
      rfl

theorem meet (h : r.Ready sink) (e : Entry) : Ready sink (r.meet e) := by
  cases e with
  | named level message extra => exact h
  | numbered level message extra => exact h
  | standard name level message arguments exception => exact ⟨h.sinks, h.deaf, h.loggers.touch name⟩

/-- Entries that can be made are written once each if they are accepted, in their order. -/
theorem emitAll (h : r.Ready sink) {emissions : List Emission} (hValid : ∀ e ∈ emissions, e.entry.Valid) :
    ∃ ds, r.emitAll emissions = (ds, none) ∧
      List.Forall₂ (Shows sink.production) (heard sink.threshold r emissions) ds := by
  induction emissions generalizing r with
  | nil => exact ⟨[], rfl, .nil⟩
  | cons e rest ih =>
      obtain ⟨hHead, hRest⟩ := List.forall_mem_cons.mp hValid
      have hMet := h.meet e.entry
      obtain ⟨text, hText, hEmit⟩ := hMet.emit hHead
      obtain ⟨ds, hLater, hShown⟩ := ih hMet hRest
      rw [Routes.emitAll, hEmit, heard]
      dsimp only
      rw [hLater]
      split
      · exact ⟨_, rfl, .cons (shows_record hText sink.production) hShown⟩
      · exact ⟨_, rfl, hShown⟩

end Ready

end Routes

/-- A name of a logger of the client, or one that begins with such a name and a point. -/
def isClientName (name : Text) : Bool :=
  clientLoggers.any fun root => name = root || (root ++ [Loggers.point]).isPrefixOf name

/-- No point follows the point behind the name of a logger of the client. -/
def IsPlainName (name : Text) : Prop :=
  ∀ root ∈ clientLoggers, ¬root ++ [Loggers.point, Loggers.point] <+: name

theorem isUnder_eq_isClientName {ls : Loggers} {level : Nat} (h : ls.Listening clientLoggers level) {name : Text}
    (hPlain : IsPlainName name) : ls.isUnder clientLoggers name = isClientName name := by
  have hRoots : ∀ root ∈ clientLoggers, root ≠ [] := by decide
  rw [Bool.eq_iff_iff, h.isUnder_iff hRoots hPlain]
  simp [isClientName]

/-- Where no two points follow the name of a logger of the client, the accepted emissions are told by their
own levels and names. -/
theorem heard_eq_filter {r : Routes} {sink : Sink} (h : r.Ready sink) {emissions : List Emission}
    (hPlain : ∀ e ∈ emissions, ∀ name, e.entry.logger? = some name → IsPlainName name) :
    heard sink.threshold r emissions = emissions.filter (·.entry.passes sink.threshold isClientName) := by
  induction emissions generalizing r with
  | nil => rfl
  | cons e rest ih =>
      obtain ⟨hHead, hRest⟩ := List.forall_mem_cons.mp hPlain
      have hMet := h.meet e.entry
      have hPasses : e.entry.passes sink.threshold ((r.meet e.entry).loggers.isUnder clientLoggers)
          = e.entry.passes sink.threshold isClientName := by
        unfold Entry.passes
        cases hLogger : e.entry.logger? with
        | none => rfl
        | some name =>
            rw [Option.all_some, Option.all_some, isUnder_eq_isClientName hMet.loggers (hHead name hLogger)]
      rw [heard, List.filter_cons, hPasses, ih hMet hRest]

/-- The log after it was configured any number of times, the last time with a level that the standard loggers
know, before which nothing was set for loggers other than the client's. Entries that can be made are all made.
What is written are the accepted ones, each once, in their order and on one stream: the direct ones from the
threshold up, and so those of the loggers of the client and below. Which loggers these are is told by their
names, unless two points follow one of a client's in one. -/
theorem accepted_written_once {start : Routes} (hStart : start.loggers.Bare clientLoggers)
    (earlier : List (Bool × Text)) (production : Bool) {level : Level} (hLevel : level.isStandard = true)
    {emissions : List Emission} (hValid : ∀ e ∈ emissions, e.entry.Valid) :
    let configured := (start.reconfigure earlier).configure production level.name
    let r := configured.1
    configured.2 = none ∧
    (∃ ds, r.emitAll emissions = (ds, none) ∧ List.Forall₂ (Shows production) (heard level r emissions) ds) ∧
    ((∀ e ∈ emissions, ∀ name, e.entry.logger? = some name → IsPlainName name) →
      heard level r emissions = emissions.filter (·.entry.passes level isClientName)) := by
  intro configured r
  obtain ⟨hNone, hReady⟩ :=
    Routes.configure_of_standard (Routes.bare_reconfigure hStart earlier) production hLevel
  exact ⟨hNone, hReady.emitAll hValid, heard_eq_filter hReady⟩

/-- After a configuration for readers and one that failed, a log for machines. -/
theorem both_routes_reconfigured :
    let start : Routes := { loggers := [("httpx.deep", {}), ("other", {})] }
    let made (entry : Entry) : Emission := ⟨⟨.epoch, none⟩, "app", entry⟩
    let warned := made (.named "WARNING" "careful" (some [("message", .text "look out")]))
    let counted := made (.numbered 22 "twenty-two" none)
    let answered := made (.standard "httpx" 20 "%s %s" [.text "GET", .int 200] none)
    let nested := made (.standard "httpcore.deep.down" 25 "closed" [] (some "gone"))
    let emissions := [
      made (.named "DEBUG" "quiet" none), warned, counted, answered,
      made (.standard "httpx.deep" 10 "quiet" [] none), made (.standard "other" 50 "elsewhere" [] none),
      made (.standard "httpxx" 50 "elsewhere" [] none), nested]
    ∃ ds, ((start.reconfigure [(false, "DEBUG"), (true, "loud")]).configure true "INFO").1.emitAll emissions
        = (ds, none) ∧
      List.Forall₂ (Shows true) [warned, counted, answered, nested] ds := by
  intro start made warned counted answered nested emissions
  have hStart : start.loggers.Bare clientLoggers := by
    intro name _ l hGet
    obtain ⟨before, after, hSplit, -⟩ := Entries.get?_eq_some_iff.mp hGet
    have hMem : (name, l) ∈ start.loggers := by simp [hSplit]
    simp only [start, List.mem_cons, Prod.mk.injEq, List.not_mem_nil, or_false] at hMem
    rcases hMem with ⟨-, hBare⟩ | ⟨-, hBare⟩ <;> exact hBare
  have hValid : ∀ e ∈ emissions, e.entry.Valid := by
    simp only [emissions, List.forall_mem_cons]
    exact ⟨.named .debug "quiet" none (by unfold BraceFree; decide),
      .named .warning "careful" _ (by unfold BraceFree; decide),
      .numbered 22 "twenty-two" none (by unfold BraceFree; decide),
      .standard "httpx" 20 _ _ none "GET 200" (eq_ok_of_toOption (by decide +kernel)),
      .standard "httpx.deep" 10 _ _ none "quiet" (by rfl),
      .standard "other" 50 _ _ none "elsewhere" (by rfl),
      .standard "httpxx" 50 _ _ none "elsewhere" (by rfl),
      .standard "httpcore.deep.down" 25 _ _ _ "closed" (by rfl), List.forall_mem_nil _⟩
  obtain ⟨-, ⟨ds, hAll, hShown⟩, hFilter⟩ := accepted_written_once hStart [(false, "DEBUG"), (true, "loud")]
    true (show Level.info.isStandard = true from rfl) hValid
  have hNames : ∀ name ∈ emissions.filterMap (·.entry.logger?), IsPlainName name := by
    unfold IsPlainName
    decide +zetaReduce
  have hPlain : ∀ e ∈ emissions, ∀ name, e.entry.logger? = some name → IsPlainName name :=
    fun e he name hName => hNames name (List.mem_filterMap.mpr ⟨e, he, hName⟩)
  rw [hFilter hPlain] at hShown
  exact ⟨ds, hAll, hShown⟩

/-- In a log for machines a value passed as `message` takes the place of the text. -/
theorem passed_message_replaces_text :
    let e : Emission := ⟨⟨.epoch, none⟩, "app", .named "INFO" "hello" (some [("message", .text "bye")])⟩
    let r := (({} : Routes).configure true "INFO").1
    e.entry.Valid ∧ heard .info r [e] = [e] ∧ ∃ d, r.emitAll [e] = ([d], none) ∧ e.entry.text? = some "hello" ∧
      d.record.members.get? "message" ≠ some (.string "hello") := by
  intro e r
  have hValid : e.entry.Valid := .named .info "hello" _ (by unfold BraceFree; decide)
  have hStart : Loggers.Bare clientLoggers ({} : Routes).loggers := fun _ _ _ hGet => by cases hGet
  have hReady : Routes.Ready ⟨true, .info⟩ r := (Routes.configure_of_standard hStart true rfl).2
  obtain ⟨ds, hAll, hShown⟩ := hReady.emitAll (List.forall_mem_singleton.mpr hValid)
  cases hShown with
  | @cons _ d _ rest hShows hNone =>
      cases hNone
      refine ⟨hValid, by rfl, d, hAll, rfl, fun hSame => ?_⟩
      cases Option.some.inj (hShows.message.symm.trans hSame)

end Log

end Bearer
