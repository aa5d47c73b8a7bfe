import Bearer.Proofs.Command.Output
import Bearer.Proofs.Settings.Issues

/-! An order ends the program with status 0 if it can be carried out, and with status 1 and one line that tells why if
it can not, unless it comes upon a text that is no UTF-8 or a body that opens a container too many. The client of a
backend is closed once, however the program ends. -/

namespace Bearer.Command

open Cache

/-- A reply of the token endpoint is refused for a cause. -/
inductive Refuses (nesting : Nat) : Reply → Report → Prop where
  | transport (e : TransportError) : Refuses nesting (.failed e) e.report
  | endpoint (r : Response) (hStatus : r.status < 200 ∨ 299 < r.status) :
      Refuses nesting (.response r) (.tokenEndpoint r.status r.text)
  | malformed (r : Response) (e : GrantError) (hStatus : 200 ≤ r.status ∧ r.status ≤ 299)
      (hBody : Grant.read r.body nesting = .error (.malformed e)) :
      Refuses nesting (.response r) (.plain .malformedTokenResponse e.message)

/-- The settings are valid, and their options make a credential. -/
structure Ready (place : Place) (s : Settings) (credential : Credential) : Prop where
  read : Settings.read place.sources = .valid s
  resolve : (CredentialOptions.ofEntries s.options).resolve = .ok credential

/-- The order can be carried out: there is a credential, and the token endpoint grants a token if the order needs
one. -/
inductive Succeeds (place : Place) : Order → Prop where
  | check (s : Settings) (credential : Credential) (hReady : Ready place s credential) : Succeeds place .check
  | fixed (s : Settings) (token : Text) (asJson : Bool) (hReady : Ready place s (.fixed token)) :
      Succeeds place (.token asJson)
  | granted (s : Settings) (key : RefreshKey) (request : Request) (g : Grant) (asJson : Bool)
      (hReady : Ready place s (.refreshable key {})) (hRequest : refreshRequest s.tokenUrl key = .ok request)
      (hGrant : (place.send request).reply.grant? place.nesting = some g) : Succeeds place (.token asJson)

/-- The order fails, with a message for the user. Settings that are not valid tell of all their issues, field after
field. -/
inductive Fails (place : Place) : Order → Text → Prop where
  | invalid (o : Order) (issues : List Settings.Issue) (message : Text)
      (hRead : Settings.read place.sources = .invalid issues)
      (hIssues : issues = Settings.Field.all.filterMap (Settings.issue? place.sources.given?))
      (hMessage : Settings.Issue.Describes place.wording issues message) : Fails place o message
  | unresolved (o : Order) (s : Settings) (e : CredentialError) (hRead : Settings.read place.sources = .valid s)
      (hResolve : (CredentialOptions.ofEntries s.options).resolve = .error e) : Fails place o e.message
  | refused (asJson : Bool) (s : Settings) (key : RefreshKey) (request : Request) (cause : Report)
      (hReady : Ready place s (.refreshable key {})) (hRequest : refreshRequest s.tokenUrl key = .ok request)
      (hRefuses : Refuses place.nesting (place.send request).reply cause) :
      Fails place (.token asJson) (("Failed to refresh access token: " : Text) ++ cause.message)

/-- The order comes upon an error that is not for the user to mend: a root or a key that is no UTF-8, or a body that
opens a container too many. -/
inductive Escapes (place : Place) : Order → Report → Prop where
  | root (s : Settings) (credential : Credential) (fault : EncodeFault) (hReady : Ready place s credential)
      (hStrict : place.strict = true)
      (hFault : Utf8.encode (rootLine (Path.normalize (s.root.getD []))) = .error fault) :
      Escapes place .check (unprintable fault)
  | key (asJson : Bool) (s : Settings) (key : RefreshKey) (fault : EncodeFault)
      (hReady : Ready place s (.refreshable key {})) (hFault : refreshRequest s.tokenUrl key = .error fault) :
      Escapes place (.token asJson) (unprintable fault)
  | body (asJson : Bool) (s : Settings) (key : RefreshKey) (request : Request) (r : Response)
      (container : Json.Container) (hReady : Ready place s (.refreshable key {}))
      (hRequest : refreshRequest s.tokenUrl key = .ok request) (hReply : (place.send request).reply = .response r)
      (hStatus : 200 ≤ r.status ∧ r.status ≤ 299)
      (hBody : Grant.read r.body place.nesting = .error (.tooDeep container)) :
      Escapes place (.token asJson) (Refusal.tooDeep container).report

/-- The program ends with status 1 and a message on standard error, and writes nothing else but records of the log. -/
def Transcript.Complains (t : Transcript) (message : Text) : Prop :=
  t.ending = .exit 1 ∧ ∃ (production : Bool) (records : List Log.Record),
    t.pieces = records.map (.logged production) ++ [.err (("Error: " : Text) ++ message ++ ("\n" : Text))]

/-- The transport keeps its contract, the margin is a duration, what is granted expires within the calendar, and
standard output takes the tokens. -/
structure Place.Regular (place : Place) : Prop where
  contract : ∀ r, (place.send r).reply.KeepsContract
  margin : ∀ s, Settings.read place.sources = .valid s → s.refreshMargin ≤ Duration.mostSeconds
  expiry : ∀ r g, (place.send r).reply.grant? place.nesting = some g → (g.expiry? place.now).isSome = true
  fixed : ∀ s token, Ready place s (.fixed token) → place.Prints token
  granted : ∀ r g, (place.send r).reply.grant? place.nesting = some g → place.Prints g.token

/-- How the run of an order ends: with an error that nobody reports if the order comes upon one, and else as the order
succeeds or fails. -/
structure Ends (place : Place) (o : Order) (t : Transcript) : Prop where
  raised : ∀ r, Escapes place o r → t.ending = .raised r
  success : (∀ r, ¬Escapes place o r) → (t.ending = .exit 0 ↔ Succeeds place o)
  failure : (∀ r, ¬Escapes place o r) → ¬Succeeds place o → ∃ message, Fails place o message ∧ t.Complains message

/-- What the run of an order sends, and the clients that it creates and closes. -/
structure Tidy (place : Place) (o : Order) (t : Transcript) : Prop where
  check : o = .check → t.exchanges = []
  fixed : ∀ s token, Ready place s (.fixed token) → t.exchanges = []
  closed : t.closed = t.clients.map fun timeout => .client timeout true
  client : ∀ asJson s credential, o = .token asJson → Ready place s credential → t.clients = [s.httpTimeout]
  clients : (∀ asJson s credential, o = .token asJson → ¬Ready place s credential) → t.clients = []

variable {place : Place} {s : Settings} {credential : Credential} {o : Order} {message : Text} {r : Report}

theorem Ready.unique {s' : Settings} {credential' : Credential} (hReady : Ready place s credential)
    (hReady' : Ready place s' credential') : s = s' ∧ credential = credential' := by
  obtain ⟨hRead, hResolve⟩ := hReady
  obtain ⟨hRead', hResolve'⟩ := hReady'
  cases hRead.symm.trans hRead'
  cases hResolve.symm.trans hResolve'
  exact ⟨rfl, rfl⟩

theorem Refuses.grant?_eq_none {nesting : Nat} {reply : Reply} {cause : Report}
    (hRefuses : Refuses nesting reply cause) : reply.grant? nesting = none := by
  cases hRefuses with
  | transport e => rfl
  | endpoint r hStatus =>
      have hFailure : r.isSuccess = false := by
        simp only [Response.isSuccess, Bool.and_eq_false_iff, decide_eq_false_iff_not]
        omega
      rw [Reply.grant?, hFailure]
      rfl
  | malformed r e hStatus hBody =>
      rw [Reply.grant?, hBody]
      split <;> rfl

/-- With a credential only an order for a token fails, and its credential is a key that is refused. -/
theorem Fails.refused_of_ready (hFails : Fails place o message) (hReady : Ready place s credential) :
    ∃ asJson key request cause, o = .token asJson ∧ credential = .refreshable key {} ∧
      refreshRequest s.tokenUrl key = .ok request ∧ Refuses place.nesting (place.send request).reply cause ∧
      message = ("Failed to refresh access token: " : Text) ++ cause.message := by
  cases hFails with
  | invalid _ _ _ hRead _ _ => cases hReady.read.symm.trans hRead
  | unresolved _ _ _ hRead hResolve =>
      cases hReady.read.symm.trans hRead
      cases hReady.resolve.symm.trans hResolve
  | refused asJson _ key request cause hReady' hRequest hRefuses =>
      obtain ⟨rfl, rfl⟩ := hReady.unique hReady'
      exact ⟨asJson, key, request, cause, rfl, rfl, hRequest, hRefuses, rfl⟩

theorem Succeeds.not_fails (hSucceeds : Succeeds place o) : ¬Fails place o message := by
  intro hFails
  cases hSucceeds with
  | check s credential hReady =>
      obtain ⟨_, _, _, _, hOrder, -⟩ := hFails.refused_of_ready hReady
      cases hOrder
  | fixed s token asJson hReady =>
      obtain ⟨_, _, _, _, -, hKey, -⟩ := hFails.refused_of_ready hReady
      cases hKey
  | granted s key request g asJson hReady hRequest hGrant =>
      obtain ⟨_, _, _, _, -, hKey, hRequest', hRefuses, -⟩ := hFails.refused_of_ready hReady
      cases hKey
      cases hRequest.symm.trans hRequest'
      rw [hRefuses.grant?_eq_none] at hGrant
      cases hGrant

theorem Escapes.not_fails (hEscapes : Escapes place o r) : ¬Fails place o message := by
  intro hFails
  cases hEscapes with
  | root s credential fault hReady hStrict hFault =>
      obtain ⟨_, _, _, _, hOrder, -⟩ := hFails.refused_of_ready hReady
      cases hOrder
  | key asJson s key fault hReady hFault =>
      obtain ⟨_, _, _, _, -, hKey, hRequest, -⟩ := hFails.refused_of_ready hReady
      cases hKey
      cases hFault.symm.trans hRequest
  | body asJson s key request response container hReady hRequest hReply hStatus hBody =>
      obtain ⟨_, _, _, _, -, hKey, hRequest', hRefuses, -⟩ := hFails.refused_of_ready hReady
      cases hKey
      cases hRequest.symm.trans hRequest'
      rw [hReply] at hRefuses
      cases hRefuses with
      | endpoint _ hStatus' => omega
      | malformed _ e _ hBody' => cases hBody.symm.trans hBody'

theorem Escapes.unique {r' : Report} (hEscapes : Escapes place o r) (hEscapes' : Escapes place o r') : r = r' := by
  cases hEscapes with
  | root s credential fault hReady _ hFault =>
      cases hEscapes' with
      | root _ _ fault' hReady' _ hFault' =>
          obtain ⟨rfl, -⟩ := hReady.unique hReady'
          cases hFault.symm.trans hFault'
          rfl
  | key asJson s key fault hReady hFault =>
      cases hEscapes' with
      | key _ _ _ fault' hReady' hFault' =>
          obtain ⟨rfl, hKey⟩ := hReady.unique hReady'
          cases hKey
          cases hFault.symm.trans hFault'
          rfl
      | body _ _ _ _ _ _ hReady' hRequest =>
          obtain ⟨rfl, hKey⟩ := hReady.unique hReady'
          cases hKey
          cases hFault.symm.trans hRequest
  | body asJson s key request response container hReady hRequest hReply _ hBody =>
      cases hEscapes' with
      | key _ _ _ _ hReady' hFault =>
          obtain ⟨rfl, hKey⟩ := hReady.unique hReady'
          cases hKey
          cases hFault.symm.trans hRequest
      | body _ _ _ _ _ _ hReady' hRequest' hReply' _ hBody' =>
          obtain ⟨rfl, hKey⟩ := hReady.unique hReady'
          cases hKey
          cases hRequest.symm.trans hRequest'
          cases hReply.symm.trans hReply'
          cases hBody.symm.trans hBody'
          rfl

/-- The ways in which the run of an order can end. -/
inductive Comes (place : Place) (o : Order) (t : Transcript) : Prop where
  | success (hSucceeds : Succeeds place o) (hNone : ∀ r, ¬Escapes place o r) (hExit : t.ending = .exit 0)
  | failure (message : Text) (hFails : Fails place o message) (hComplains : t.Complains message)
  | escape (r : Report) (hEscapes : Escapes place o r) (hRaised : t.ending = .raised r)

theorem Comes.ends {t : Transcript} (hComes : Comes place o t) : Ends place o t := by
  cases hComes with
  | success hSucceeds hNone hExit =>
      exact ⟨fun r hEscapes => absurd hEscapes (hNone r), fun _ => iff_of_true hExit hSucceeds,
        fun _ hNot => absurd hSucceeds hNot⟩
  | failure message hFails hComplains =>
      refine ⟨fun r hEscapes => absurd hFails hEscapes.not_fails, fun _ => iff_of_false ?_ fun h => h.not_fails hFails,
        fun _ _ => ⟨message, hFails, hComplains⟩⟩
      rw [hComplains.1]
      simp
  | escape r hEscapes hRaised =>
      exact ⟨fun r' hEscapes' => hEscapes.unique hEscapes' ▸ hRaised, fun hNone => absurd hEscapes (hNone r),
        fun hNone => absurd hEscapes (hNone r)⟩

/-- A refresh whose grant expires within the calendar yields the granted token, or fails with the cause for which the
answer is refused, or comes upon a container too many. -/
theorem yields_cases {nesting : Nat} {a : Answer} {outcome : Outcome} (hYields : a.Yields nesting outcome)
    (hExpiry : ∀ g, a.reply.grant? nesting = some g → (g.expiry? a.now).isSome = true) :
    (∃ g, a.reply.grant? nesting = some g ∧ outcome = .token g.token) ∨
      (∃ cause, Refuses nesting a.reply cause ∧ outcome.FailsWith cause) ∨
      ∃ r container, a.reply = .response r ∧ (200 ≤ r.status ∧ r.status ≤ 299) ∧
        Grant.read r.body nesting = .error (.tooDeep container) ∧ outcome = .failed (.tooDeep container) := by
  cases hYields with
  | granted g expiry hGrant hSome => exact .inl ⟨g, hGrant, rfl⟩
  | overrun g hGrant hNone =>
      have hInside := hExpiry g hGrant
      rw [hNone] at hInside
      cases hInside
  | transport e _ hReply hFails => exact .inr (.inl ⟨_, hReply ▸ .transport e, hFails⟩)
  | endpoint r _ hReply hStatus hFails => exact .inr (.inl ⟨_, hReply ▸ .endpoint r hStatus, hFails⟩)
  | malformed r e _ hReply hStatus hBody hFails =>
      exact .inr (.inl ⟨_, hReply ▸ .malformed r e hStatus hBody, hFails⟩)
  | tooDeep r container hReply hStatus hBody _ => exact .inr (.inr ⟨r, container, hReply, hStatus, hBody, rfl⟩)

theorem stopped_complains (e : CredentialError) : (stopped e.report).Complains e.message := by
  cases e <;> exact ⟨rfl, false, [], rfl⟩

theorem check_comes (hRead : Settings.read place.sources = .valid s) :
    Comes place .check (transcript place (check place s)) := by
  rw [transcript_check, findings]
  cases hResolve : (CredentialOptions.ofEntries s.options).resolve with
  | error e => exact .failure e.message (.unresolved .check s e hRead hResolve) (stopped_complains e)
  | ok credential =>
      have hReady : Ready place s credential := ⟨hRead, hResolve⟩
      rcases prints_or_refuses place (rootLine (Path.normalize (s.root.getD []))) with hPrints | ⟨hStrict, fault, hFault⟩
      · refine .success (.check s credential hReady) (fun r hEscapes => ?_) ?_
        · cases hEscapes with
          | root _ _ fault hReady' hStrict hFault =>
              obtain ⟨rfl, -⟩ := hReady.unique hReady'
              exact not_prints hStrict hFault hPrints
        · exact congrArg Transcript.ending (told_of_prints (prints_rootLine.mp hPrints) credential)
      · refine .escape _ (.root s credential fault hReady hStrict hFault) ?_
        exact congrArg Transcript.ending (told_of_refused hStrict hFault credential)

theorem served_complains {failure : Failure} (hLast : failure.last place = ([complaint message], .exit 1))
    (records closing : List Log.Record) (exchanges : List Client.Exchange) :
    (served place s records closing exchanges (.error failure)).Complains message := by
  refine ⟨?_, s.isProduction, records ++ closing, ?_⟩
  · simp only [served, hLast]
  · simp [served, hLast, complaint]

/-- A refresh that fails with a cause of its own stops the program with an error for the user to mend. -/
theorem drawn_of_failsWith {settled : Settlement} {cause : Report} (hFails : settled.outcome.FailsWith cause) :
    drawn settled = .error (.failed
      (.refreshFailed (("Failed to refresh access token: " : Text) ++ cause.message) (some cause) true)) := by
  obtain ⟨e, hOutcome, hReport⟩ := hFails
  rw [drawn, hOutcome, ← hReport]
  cases e <;> first | rfl | cases hReport

theorem drawn_of_tooDeep {settled : Settlement} {container : Json.Container}
    (hOutcome : settled.outcome = .failed (.tooDeep container)) :
    drawn settled = .error (.failed (Refusal.tooDeep container).report) := by
  rw [drawn, hOutcome]
  rfl

theorem lineOf_token {token : Text} (hPrints : place.Prints token) (asJson : Bool) (expiresAt : Option Instant) :
    lineOf place asJson (.ok (token, expiresAt)) = .ok (printed asJson token expiresAt) :=
  shown_of_prints (prints_printed (.inr hPrints) expiresAt)

theorem token_comes (hRegular : place.Regular) (hRead : Settings.read place.sources = .valid s) (asJson : Bool) :
    Comes place (.token asJson) (transcript place (token place s asJson)) := by
  have hCourse := course_of_read hRead asJson
  generalize transcript place (token place s asJson) = t at hCourse ⊢
  cases hCourse with
  | overrun hMargin => exact absurd hMargin (Int.not_lt.mpr (hRegular.margin s hRead))
  | unresolved e _ hResolve => exact .failure e.message (.unresolved _ s e hRead hResolve) ⟨rfl, false, [], rfl⟩
  | served credential margin exchanges result records closing _ hResolve hObtains _ =>
      have hReady : Ready place s credential := ⟨hRead, hResolve⟩
      cases hObtains with
      | fixed token =>
          rw [lineOf_token (hRegular.fixed s token hReady)]
          refine .success (.fixed s token asJson hReady) (fun r hEscapes => ?_) rfl
          cases hEscapes with
          | key _ _ _ _ hReady' _ => cases (hReady.unique hReady').2
          | body _ _ _ _ _ _ hReady' _ _ _ _ => cases (hReady.unique hReady').2
      | unwritten key fault hFault => exact .escape _ (.key asJson s key fault hReady hFault) rfl
      | answered key request hRequest =>
          have hYields : Answer.Yields place.nesting ⟨place.now, (place.send request).reply⟩ _ :=
            yields_settlement place.nesting margin key {} (hRegular.contract request)
          rcases yields_cases hYields (hRegular.expiry request) with
            ⟨g, hGrant, hToken⟩ | ⟨cause, hRefuses, hFails⟩ | ⟨r, container, hReply, hStatus, hBody, hDeep⟩
          · rw [drawn_eq_ok.mpr ⟨hToken, rfl⟩, lineOf_token (hRegular.granted request g hGrant)]
            refine .success (.granted s key request g asJson hReady hRequest hGrant) (fun r hEscapes => ?_) rfl
            cases hEscapes with
            | key _ _ _ _ hReady' hFault =>
                obtain ⟨rfl, hKey⟩ := hReady.unique hReady'
                cases hKey
                cases hRequest.symm.trans hFault
            | body _ _ _ _ _ _ hReady' hRequest' hReply _ hBody =>
                obtain ⟨rfl, hKey⟩ := hReady.unique hReady'
                cases hKey
                cases hRequest.symm.trans hRequest'
                rw [hReply, Reply.grant?, hBody] at hGrant
                split at hGrant <;> cases hGrant
          · rw [drawn_of_failsWith hFails]
            exact .failure _ (.refused asJson s key request cause hReady hRequest hRefuses)
              (served_complains rfl records closing _)
          · rw [drawn_of_tooDeep hDeep]
            exact .escape _ (.body asJson s key request r container hReady hRequest hReply hStatus hBody) rfl

theorem obey_comes (hRegular : place.Regular) (o : Order) : Comes place o (transcript place (obey place o)) := by
  unfold obey
  cases hRead : Settings.read place.sources with
  | invalid issues =>
      exact .failure _ (.invalid o issues _ hRead (Settings.issues_of_read hRead).2
        (Settings.Issue.describes_describeAll place.wording issues))
        ⟨rfl, false, [], rfl⟩
  | valid s =>
      cases o with
      | check => exact check_comes hRead
      | token asJson => exact token_comes hRegular hRead asJson

/-- A check does nothing but write. -/
theorem deeds_told (place : Place) (found : Except Report (Credential × Text)) :
    (told place found).toDeeds = { pieces := (told place found).pieces } := by
  cases found with
  | error r => cases hKind : r.kind? <;> simp only [told, stopped, hKind]
  | ok pair =>
      obtain ⟨credential, root⟩ := pair
      rw [told]
      split <;> rfl

theorem token_tidy (hRead : Settings.read place.sources = .valid s) (hMargin : s.refreshMargin ≤ Duration.mostSeconds)
    (asJson : Bool) : Tidy place (.token asJson) (transcript place (token place s asJson)) := by
  have hCourse := course_of_read hRead asJson
  generalize transcript place (token place s asJson) = t at hCourse ⊢
  cases hCourse with
  | overrun hWide => exact absurd hWide (Int.not_lt.mpr hMargin)
  | unresolved e _ hResolve =>
      have hNot : ∀ s' credential, ¬Ready place s' credential := fun s' credential hReady => by
        cases hRead.symm.trans hReady.read
        cases hResolve.symm.trans hReady.resolve
      exact {
        check := fun h => by cases h
        fixed := fun s' token hReady => absurd hReady (hNot s' _)
        closed := rfl
        client := fun _ s' credential _ hReady => absurd hReady (hNot s' credential)
        clients := fun _ => rfl }
  | served credential margin exchanges result records closing _ hResolve hObtains _ =>
      have hReady : Ready place s credential := ⟨hRead, hResolve⟩
      exact {
        check := fun h => by cases h
        fixed := fun s' token hReady' => by
          obtain ⟨-, rfl⟩ := hReady.unique hReady'
          cases hObtains
          rfl
        closed := rfl
        client := fun _ s' credential' _ hReady' => by
          obtain ⟨rfl, -⟩ := hReady.unique hReady'
          rfl
        clients := fun hNot => absurd hReady (hNot asJson s credential rfl) }

theorem obey_tidy (hMargin : ∀ s, Settings.read place.sources = .valid s → s.refreshMargin ≤ Duration.mostSeconds)
    (o : Order) : Tidy place o (transcript place (obey place o)) := by
  unfold obey
  cases hRead : Settings.read place.sources with
  | invalid issues =>
      have hNot : ∀ s credential, ¬Ready place s credential := fun s credential hReady => by
        cases hRead.symm.trans hReady.read
      exact {
        check := fun _ => rfl
        fixed := fun s token hReady => absurd hReady (hNot s _)
        closed := rfl
        client := fun _ s credential _ hReady => absurd hReady (hNot s credential)
        clients := fun _ => rfl }
  | valid s =>
      cases o with
      | check =>
          have hDeeds := deeds_told place (findings s)
          rw [transcript_check]
          exact {
            check := fun _ => congrArg Deeds.exchanges hDeeds
            fixed := fun _ _ _ => congrArg Deeds.exchanges hDeeds
            closed := by rw [hDeeds]; rfl
            client := fun _ _ _ h => by cases h
            clients := fun _ => congrArg Deeds.clients hDeeds }
      | token asJson => exact token_tidy hRead (hMargin s hRead) asJson

/-- The place in which the file of variables has a text. -/
def Place.withFile (place : Place) (text : Text) : Place := { place with sources.file := some text }

theorem start_of_text {file : Option Bytes} {words : List Text} {text : Text} (hOrder : order words = .ok o)
    (hText : Utf8.decode (file.getD []) = .ok text) (place : Place) :
    start place file words = transcript (place.withFile text) (obey (place.withFile text) o) := by
  rw [start, hOrder, hText]
  dsimp only
  rw [run, hOrder]
  rfl

theorem decode_no_file : Utf8.decode ((none : Option Bytes).getD []) = .ok [] := by decide +kernel

/-- Let the transport keep its contract, all dates stay in the calendar and the tokens be printable. A file of variables
that is no UTF-8 ends the program at once. Otherwise an order ends it with status 0 exactly if it can be carried out, and
with status 1 and the message with which it fails if it can not, unless it comes upon a root or a key that is no UTF-8 or
a body that opens a container too many: those end it with their own error. A check and a fixed token send nothing. The
client of a backend is closed once, and there is none for settings that are not valid or make no credential. -/
theorem run_ends (place : Place) (file : Option Bytes)
    (hRegular : ∀ text, Utf8.decode (file.getD []) = .ok text → (place.withFile text).Regular) :
    order ["check"] = .ok .check ∧ order ["token"] = .ok (.token false) ∧
    order ["token", "--json"] = .ok (.token true) ∧
    ∀ words o, order words = .ok o →
      (∀ fault, Utf8.decode (file.getD []) = .error fault →
        start place file words = { ending := .raised (.foreign "UnicodeDecodeError" fault.message) }) ∧
      ∀ text, Utf8.decode (file.getD []) = .ok text →
        Ends (place.withFile text) o (start place file words) ∧ Tidy (place.withFile text) o (start place file words) := by
  refine ⟨by rfl, by rfl, by rfl, fun words o hOrder => ⟨fun fault hFault => ?_, fun text hText => ?_⟩⟩
  · rw [start, hOrder, hFault]
  · have hInside := hRegular text hText
    rw [start_of_text hOrder hText]
    exact ⟨(obey_comes hInside o).ends, obey_tidy hInside.margin o⟩

/-- A place where a key is set and the token endpoint always gives the same reply. -/
def keyPlace (reply : Reply) : Place where
  now := .epoch
  sources := keySources
  send _ := { reply }

theorem read_keyPlace (reply : Reply) :
    Settings.read ((keyPlace reply).withFile []).sources = .valid keySettings := read_keySources

theorem ready_keyPlace (reply : Reply) :
    Ready ((keyPlace reply).withFile []) keySettings (.refreshable ⟨"r", "id", "s"⟩ {}) :=
  ⟨read_keyPlace reply, resolve_keySettings⟩

theorem regular_keyPlace {reply : Reply} (hContract : reply.KeepsContract)
    (hGrant : reply.grant? Json.usualNesting = none) : ((keyPlace reply).withFile []).Regular where
  contract _ := hContract
  margin s hRead := by
    cases (read_keyPlace reply).symm.trans hRead
    decide
  expiry _ g h := by cases hGrant.symm.trans h
  fixed s token hReady := by cases ((ready_keyPlace reply).unique hReady).2
  granted _ g h := by cases hGrant.symm.trans h

/-- Where the token endpoint is out of reach, `token` ends with status 1 and the transport's message, and has closed its
client. -/
theorem token_out_of_reach :
    let place := keyPlace (.failed { message := "down" })
    (place.withFile []).Regular ∧
    (start place none ["token"]).Complains "Failed to refresh access token: down" ∧
    (start place none ["token"]).closed = [.client Settings.defaultTimeout true] := by
  intro place
  have hRegular : (place.withFile []).Regular := regular_keyPlace trivial rfl
  have hReady := ready_keyPlace (.failed { message := "down" })
  obtain ⟨-, hOrder, -, hRuns⟩ := run_ends place none fun text hDecode => by
    cases decode_no_file.symm.trans hDecode
    exact hRegular
  obtain ⟨hEnds, hTidy⟩ := (hRuns _ _ hOrder).2 [] decode_no_file
  obtain ⟨request, hRequest⟩ := request_keySettings
  have hFails := Fails.refused false keySettings _ request _ hReady hRequest (.transport { message := "down" })
  have hNone : ∀ r, ¬Escapes (place.withFile []) (.token false) r := fun r hEscapes => hEscapes.not_fails hFails
  obtain ⟨message, hFails', hComplains⟩ := hEnds.failure hNone fun h => h.not_fails hFails
  obtain ⟨_, _, _, cause, -, -, -, hRefuses, rfl⟩ := hFails'.refused_of_ready hReady
  cases hRefuses
  refine ⟨hRegular, hComplains, ?_⟩
  rw [hTidy.closed, hTidy.client false _ _ rfl hReady]
  rfl

/-- A body of brackets that are only opened is refused by no error of the program's own: it ends in the error of the
reader. -/
theorem brackets_end_program :
    let place := keyPlace (.response { status := 200, body := Json.brackets 100000 })
    (place.withFile []).Regular ∧ ¬Succeeds (place.withFile []) (.token false) ∧
    (start place none ["token"]).ending = .raised (Refusal.tooDeep .array).report := by
  intro place
  have hBody : Grant.read (Json.brackets 100000) Json.usualNesting = .error (.tooDeep .array) := by
    rw [Grant.read, Json.ofBytes_brackets (by decide) (by decide)]
  have hGrant : Reply.grant? Json.usualNesting (.response { status := 200, body := Json.brackets 100000 }) = none := by
    rw [Reply.grant?, hBody]
    rfl
  have hRegular : (place.withFile []).Regular := regular_keyPlace trivial hGrant
  have hReady := ready_keyPlace (.response { status := 200, body := Json.brackets 100000 })
  obtain ⟨request, hRequest⟩ := request_keySettings
  have hEscapes : Escapes (place.withFile []) (.token false) (Refusal.tooDeep .array).report :=
    .body false keySettings _ request _ .array hReady hRequest rfl (by decide) hBody
  refine ⟨hRegular, fun hSucceeds => ?_, ?_⟩
  · cases hSucceeds with
    | fixed _ _ _ hReady' => cases (hReady.unique hReady').2
    | granted _ _ _ g _ _ _ hGrant' => cases hGrant.symm.trans hGrant'
  · rw [start_of_text (show order ["token"] = .ok (.token false) from rfl) decode_no_file]
    exact (obey_comes hRegular (.token false)).ends.raised _ hEscapes

end Bearer.Command
