import Bearer.Proofs.Command.Service
import Bearer.Proofs.Json.Encoding

/-! A run of `token` that ends with status 0 prints one line, with the token or a document of it. Before and behind it
stand lines of the log, if that is the one for machines. -/

namespace Bearer

/-- The ISO form of an instant has no surrogates. -/
theorem Instant.isScalar_iso (t : Instant) : t.iso.IsScalar :=
  Text.isScalar_append.mpr ⟨t.isScalar_face 'T', by decide⟩

namespace Command

open Cache

variable {place : Place} {s : Settings} {asJson : Bool} {token : Text} {expiresAt : Option Instant}

/-- What a piece puts on standard output. -/
def Piece.stdout : Piece → Text
  | .out t => t
  | .err _ => []
  | .logged true r => r.line ++ ("\n" : Text)
  | .logged false _ => []

/-- The standard output of a run. -/
def Transcript.stdout (t : Transcript) : Text := t.pieces.flatMap Piece.stdout

/-- The records of the log that a run writes. -/
def Transcript.records (t : Transcript) : List Log.Record :=
  t.pieces.filterMap fun
    | .logged _ r => some r
    | .out _ | .err _ => none

/-- What a log in a form puts on standard output. -/
def loggedOutput (production : Bool) (records : List Log.Record) : Text :=
  if production then records.flatMap fun r => r.line ++ ("\n" : Text) else []

theorem stdout_of_logged (production : Bool) (records : List Log.Record) :
    (records.map (Piece.logged production)).flatMap Piece.stdout = loggedOutput production records := by
  rw [List.flatMap_map]
  cases production with
  | true => rfl
  | false => simp [Piece.stdout, loggedOutput]

/-- The token that settings lead to, and when it expires: a fixed token never does, and a token that is
granted does at the end of its lifetime. -/
inductive Issues (place : Place) (s : Settings) : Text → Option Instant → Prop where
  | fixed (token : Text)
      (hResolve : (CredentialOptions.ofEntries s.options).resolve = .ok (.fixed token)) :
      Issues place s token none
  | granted (key : RefreshKey) (request : Request) (g : Grant) (expiry : Instant)
      (hResolve : (CredentialOptions.ofEntries s.options).resolve = .ok (.refreshable key {}))
      (hRequest : refreshRequest s.tokenUrl key = .ok request)
      (hGrant : (place.send request).reply.grant? place.nesting = some g)
      (hExpiry : g.expiry? place.now = some expiry) : Issues place s g.token (some expiry)

/-- What is obtained is a token if the answer settles as one. -/
theorem drawn_eq_ok {settled : Settlement} :
    drawn settled = .ok (token, expiresAt) ↔ settled.outcome = .token token ∧ settled.held.expiresAt = expiresAt := by
  obtain ⟨o, held, notes⟩ := settled
  cases o with
  | token t => simp [drawn, State.resultOf, Call.result, tokenOf, Except.map]
  | failed e => cases e <;> simp [drawn, State.resultOf, tokenOf, Except.map]
  | cancelled => simp [drawn, State.resultOf, tokenOf, Except.map]

theorem Obtains.issues {margin : Duration} {credential : Credential} {exchanges : List Client.Exchange}
    {result : Except Failure (Text × Option Instant)}
    (hObtains : Obtains place s.tokenUrl margin credential exchanges result)
    (hResolve : (CredentialOptions.ofEntries s.options).resolve = .ok credential)
    (hResult : result = .ok (token, expiresAt)) : Issues place s token expiresAt := by
  cases hObtains with
  | fixed token' =>
      cases hResult
      exact .fixed token hResolve
  | unwritten key fault hFault => cases hResult
  | answered key request hRequest =>
      obtain ⟨hToken, rfl⟩ := drawn_eq_ok.mp hResult
      obtain ⟨g, expiry, hGrant, rfl, hExpiry, hHeld⟩ := grant_of_token place.nesting margin key {} hToken
      rw [hHeld]
      exact .granted key request g expiry hResolve hRequest hGrant hExpiry

/-- The token that there is to print is the one that is obtained. -/
theorem Issues.obtained {margin : Duration} {credential : Credential} {exchanges : List Client.Exchange}
    {result : Except Failure (Text × Option Instant)} (hIssues : Issues place s token expiresAt)
    (hObtains : Obtains place s.tokenUrl margin credential exchanges result)
    (hResolve : (CredentialOptions.ofEntries s.options).resolve = .ok credential) :
    result = .ok (token, expiresAt) := by
  cases hIssues with
  | fixed token hResolve' =>
      cases hResolve.symm.trans hResolve'
      cases hObtains
      rfl
  | granted key request g expiry hResolve' hRequest hGrant hExpiry =>
      cases hResolve.symm.trans hResolve'
      cases hObtains with
      | unwritten _ fault hFault => cases hFault.symm.trans hRequest
      | answered _ request' hRequest' =>
          cases hRequest.symm.trans hRequest'
          obtain ⟨hToken, hHeld⟩ := store_of_expiry margin {} hExpiry
          refine drawn_eq_ok.mpr ?_
          rw [settlement_of_grant place.nesting margin key {} hGrant, hHeld]
          exact ⟨hToken, rfl⟩

/-- The document that is printed for a token. -/
def tokenDocument (token : Text) (expiresAt : Option Instant) : Json :=
  .object [
    ("access_token", .string token),
    ("expires_at", match expiresAt with
      | some t => .string t.iso
      | none => .null)]

theorem plain_tokenDocument (token : Text) (expiresAt : Option Instant) (depth : Nat) :
    Json.Plain (depth + 1) (tokenDocument token expiresAt) := by
  unfold tokenDocument
  cases expiresAt with
  | none => exact .object (by simp [Json.Plain.string, Json.Plain.null])
  | some t => exact .object (by simp [Json.Plain.string])

theorem printed_json (token : Text) (expiresAt : Option Instant) (depth : Nat) :
    Json.read (printed true token expiresAt) (depth + 1) = .ok (tokenDocument (Utf16.carried token) expiresAt) := by
  have hAccess : Utf16.carried "access_token" = "access_token" :=
    Utf16.carried_of_isScalar (by decide)
  have hExpires : Utf16.carried "expires_at" = "expires_at" := Utf16.carried_of_isScalar (by decide)
  have hRead := Json.read_print { indent := some 2 } (plain_tokenDocument token expiresAt depth) (.none [])
  rw [List.append_nil] at hRead
  refine hRead.trans ?_
  cases expiresAt with
  | none =>
      simp only [tokenDocument, Json.carried, Json.carriedMembers, Json.Style.carried, if_true, hAccess, hExpires]
      rfl
  | some t =>
      simp only [tokenDocument, Json.carried, Json.carriedMembers, Json.Style.carried, if_true, hAccess, hExpires,
        Utf16.carried_of_isScalar t.isScalar_iso]
      rfl

/-- A token is printed unless standard output refuses it; a document is always taken. -/
theorem prints_printed (hPrints : asJson = true ∨ place.Prints token) (expiresAt : Option Instant) :
    place.Prints (printed asJson token expiresAt) := by
  cases asJson with
  | true => exact fun _ => (plain_tokenDocument token expiresAt 0).isScalar_print (.inl rfl) 0
  | false => exact hPrints.resolve_left (by decide)

/-- What is printed of a token. Behind and before it, standard output shows what the log puts there. -/
structure Output (place : Place) (s : Settings) (asJson : Bool) (token : Text) (expiresAt : Option Instant)
    (before after : List Log.Record) (line : Text) (t : Transcript) : Prop where
  records : t.records = before ++ after
  closing : writeLines place (sinkOf s) place.closing = after.map (.logged s.isProduction)
  stdout : t.stdout = loggedOutput s.isProduction before ++ line ++ ("\n" : Text) ++ loggedOutput s.isProduction after
  readers : s.isProduction = false → t.stdout = line ++ ("\n" : Text)
  plain : asJson = false → line = token
  document : asJson = true →
    ∀ depth, Json.read line (depth + 1) = .ok (tokenDocument (Utf16.carried token) expiresAt)
  carried : token.IsScalar → Utf16.carried token = token

theorem output_served {before closing : List Log.Record}
    (hClosing : writeLines place (sinkOf s) place.closing = closing.map (.logged s.isProduction))
    (token : Text) (expiresAt : Option Instant) (exchanges : List Client.Exchange) :
    Output place s asJson token expiresAt before closing (printed asJson token expiresAt)
      (served place s before closing exchanges (.ok (printed asJson token expiresAt))) := by
  have hStdout : (served place s before closing exchanges (.ok (printed asJson token expiresAt))).stdout =
      loggedOutput s.isProduction before ++ printed asJson token expiresAt ++ ("\n" : Text) ++
        loggedOutput s.isProduction closing := by
    simp only [Transcript.stdout, served, List.flatMap_append, stdout_of_logged, List.flatMap_singleton,
      List.append_nil, Piece.stdout, List.append_assoc]
  exact {
    records := by simp [Transcript.records, served, List.filterMap_map]
    closing := hClosing
    stdout := hStdout
    readers := fun hReaders => by
      rw [hStdout, hReaders]
      simp [loggedOutput]
    plain := by
      rintro rfl
      rfl
    document := by
      rintro rfl depth
      exact printed_json token expiresAt depth
    carried := Utf16.carried_of_isScalar }

/-- When `token` ends with status 0, standard output is one line, with the token or a document that is read as the token
and its expiry; and before and behind it what the log puts there, which is nothing unless the log is the one for
machines. Behind it stands what the client tells the log when it is closed. -/
theorem token_output {words : List Text} (hOrder : order words = .ok (.token asJson))
    (hExit : (run place words).ending = .exit 0) :
    ∃ s token expiresAt before after line, Settings.read place.sources = .valid s ∧
      Issues place s token expiresAt ∧ Output place s asJson token expiresAt before after line (run place words) := by
  have hRun : run place words = transcript place (obey place (.token asJson)) := by rw [run, hOrder]
  rw [hRun] at hExit ⊢
  unfold obey at hExit ⊢
  cases hRead : Settings.read place.sources with
  | invalid issues =>
      rw [hRead] at hExit
      cases hExit
  | valid s =>
      rw [hRead] at hExit
      have hCourse := course_of_read hRead asJson
      generalize transcript place (Command.token place s asJson) = t at hCourse hExit ⊢
      cases hCourse with
      | overrun hMargin => cases hExit
      | unresolved e hMargin hResolve => cases hExit
      | served credential margin exchanges result records closing hMargin hResolve hObtains hClosing =>
          cases hLine : lineOf place asJson result with
          | error failure =>
              rw [hLine] at hExit
              exact absurd hExit (failure.last_ne_success place)
          | ok line =>
              obtain ⟨⟨token, expiresAt⟩, hResult, hShown⟩ := bind_eq_ok.mp hLine
              cases shown_eq_ok.mp hShown |>.1
              exact ⟨s, token, expiresAt, records, closing, _, rfl, hObtains.issues hResolve hResult,
                output_served hClosing token expiresAt exchanges⟩

/-- If a token is there to print and standard output takes it, `token` prints it and ends with status 0. -/
theorem exit_of_issues (hRead : Settings.read place.sources = .valid s)
    (hMargin : s.refreshMargin ≤ Duration.mostSeconds) (hIssues : Issues place s token expiresAt)
    (hPrints : asJson = true ∨ place.Prints token) :
    (transcript place (Command.token place s asJson)).ending = .exit 0 ∧ ∃ before after,
      Output place s asJson token expiresAt before after (printed asJson token expiresAt)
        (transcript place (Command.token place s asJson)) := by
  have hCourse := course_of_read hRead asJson
  generalize transcript place (Command.token place s asJson) = t at hCourse ⊢
  cases hCourse with
  | overrun hWide => exact absurd hWide (Int.not_lt.mpr hMargin)
  | unresolved e _ hResolve =>
      cases hIssues with
      | fixed token hResolve' => cases hResolve.symm.trans hResolve'
      | granted key request g expiry hResolve' _ _ _ => cases hResolve.symm.trans hResolve'
  | served credential margin exchanges result records closing _ hResolve hObtains hClosing =>
      have hLine : lineOf place asJson result = .ok (printed asJson token expiresAt) := by
        rw [hIssues.obtained hObtains hResolve]
        exact shown_of_prints (prints_printed hPrints expiresAt)
      rw [hLine]
      exact ⟨rfl, records, closing, output_served hClosing token expiresAt exchanges⟩

/-- A place where the log is the one for machines and tells everything, and where the client and its connection tell
it of an exchange and of the end. -/
def productionPlace : Place where
  now := ⟨1704110400000000, by decide, by decide⟩
  sources := { environment := [("DROPBOX_ACCESS_TOKEN", "T"), ("DROPBOX_ENVIRONMENT", "production"),
    ("DROPBOX_LOG_LEVEL", "DEBUG")] }
  send _ := { reply := .response { status := 200 } }
  closing := [⟨.debug, "close.started"⟩, ⟨.debug, "close.complete"⟩]
  strict := true

/-- The settings read there. -/
def productionSettings : Settings :=
  { Settings.byDefault with accessToken := some "T", deployment := .production, logLevel := .debug }

theorem read_productionPlace : Settings.read productionPlace.sources = .valid productionSettings := by
  have hLookup (f : Settings.Field) :
      Settings.lookup? f.variableName productionPlace.sources.environment = match f with
        | .accessToken => some ("T" : Text)
        | .deployment => some ("production" : Text)
        | .logLevel => some ("DEBUG" : Text)
        | _ => none := by
    cases f <;> decide +kernel
  have hRead := Settings.read_of_environment productionPlace.sources.environment
  simp only [hLookup] at hRead
  exact hRead

theorem ending_productionPlace : (run productionPlace ["token"]).ending = .exit 0 := by
  show (transcript productionPlace (obey productionPlace (.token false))).ending = .exit 0
  rw [obey, read_productionPlace]
  rfl

theorem Output.after_productionPlace {before after : List Log.Record} {line : Text} {t : Transcript}
    (hOutput : Output productionPlace productionSettings asJson token expiresAt before after line t) :
    after = productionPlace.closing.map (clientRecord productionPlace.now) :=
  List.map_injective_iff.mpr (fun _ _ h => (Piece.logged.inj h).2) (hOutput.closing.symm.trans rfl)

/-- There the token stands between records: of the backend that was built, and of the client that was closed. -/
theorem token_among_records : order ["token"] = .ok (.token false) ∧
    (run productionPlace ["token"]).ending = .exit 0 ∧ ∃ before after,
      after.map (·.message) = [("close.started" : Text), "close.complete"] ∧
      (run productionPlace ["token"]).stdout =
        loggedOutput true before ++ ("T\n" : Text) ++ loggedOutput true after := by
  have hOrder : order ["token"] = .ok (.token false) := rfl
  obtain ⟨s, token, expiresAt, before, after, line, hRead, hIssues, hOutput⟩ :=
    token_output hOrder ending_productionPlace
  rw [read_productionPlace] at hRead
  cases hRead
  have hToken : token = "T" := by
    cases hIssues with
    | fixed token hResolve => cases hResolve; rfl
    | granted key request g expiry hResolve hRequest hGrant hExpiry => cases hResolve
  refine ⟨hOrder, ending_productionPlace, before, after, ?_, ?_⟩
  · rw [hOutput.after_productionPlace]
    rfl
  · rw [hOutput.stdout, hOutput.plain rfl, hToken]
    simp only [List.append_assoc]
    rfl

/-- A body that grants a token of two surrogates, written as no UTF-8 writer would. -/
def splitBody : Bytes :=
  (Utf8.encode "\x7b\"access_token\":\"").toOption.getD [] ++ [0xED, 0xA0, 0x80, 0xED, 0xB0, 0x80]
    ++ (Utf8.encode "\",\"expires_in\":1\x7d").toOption.getD []

/-- A place where the token endpoint answers with it. -/
def splitPlace : Place where
  now := ⟨1704110400000000, by decide, by decide⟩
  sources := keySources
  send _ := { reply := .response { status := 200, body := splitBody } }

theorem issues_splitPlace :
    Issues splitPlace keySettings [.surrogate 0, .surrogate 1024]
      (some ⟨1704110401000000, by decide, by decide⟩) := by
  obtain ⟨request, hRequest⟩ := request_keySettings
  have hReply : ((splitPlace.send request).reply.grant? splitPlace.nesting).map (fun g => (g.token, g.seconds))
      = some ([.surrogate 0, .surrogate 1024], 1) := by
    show (Reply.grant? Json.usualNesting (.response { status := 200, body := splitBody })).map _ = _
    decide +kernel
  obtain ⟨g, hGrant, hPair⟩ := Option.map_eq_some_iff.mp hReply
  obtain ⟨hToken, hSeconds⟩ := Prod.mk.inj hPair
  rw [← hToken]
  refine .granted _ request g _ resolve_keySettings hRequest hGrant ?_
  rw [Grant.expiry?, hSeconds]
  rfl

/-- In production standard output is not the token alone; and a token of two surrogates that make a
pair is read back from the document as the one code point of the pair. -/
theorem output_not_token_alone :
    (Issues productionPlace productionSettings "T" none ∧
      (run productionPlace ["token"]).ending = .exit 0 ∧
      (run productionPlace ["token"]).stdout ≠ ("T\n" : Text)) ∧
    ∃ expiry, Issues splitPlace keySettings [.surrogate 0, .surrogate 1024] (some expiry) ∧
      (run splitPlace ["token", "--json"]).ending = .exit 0 ∧
      ∃ line, (run splitPlace ["token", "--json"]).stdout = line ++ ("\n" : Text) ∧
        Json.read line = .ok (tokenDocument [.scalar (Char.ofNat 0x10000)] (some expiry)) := by
  constructor
  · refine ⟨.fixed "T" rfl, ending_productionPlace, fun hAlone => ?_⟩
    have hRun : run productionPlace ["token"] =
        transcript productionPlace (token productionPlace productionSettings false) := by
      show transcript productionPlace (obey productionPlace (.token false)) = _
      rw [obey, read_productionPlace]
    obtain ⟨-, before, after, hOutput⟩ := exit_of_issues read_productionPlace (by decide)
      (Issues.fixed "T" rfl) (Or.inr fun _ => by decide : false = true ∨ productionPlace.Prints "T")
    rw [hRun, hOutput.stdout, hOutput.after_productionPlace] at hAlone
    have hLength := congrArg List.length hAlone
    simp [printed, productionPlace, loggedOutput, Text.ofString, productionSettings, Settings.isProduction] at hLength
    omega
  · have hRead : Settings.read splitPlace.sources = .valid keySettings := read_keySources
    have hRun : run splitPlace ["token", "--json"] = transcript splitPlace (token splitPlace keySettings true) := by
      show transcript splitPlace (obey splitPlace (.token true)) = _
      rw [obey, hRead]
    obtain ⟨hExit, before, after, hOutput⟩ :=
      exit_of_issues hRead (by decide) issues_splitPlace (.inl (rfl : true = true))
    refine ⟨_, issues_splitPlace, hRun ▸ hExit, _, hRun ▸ hOutput.readers rfl, ?_⟩
    exact hOutput.document rfl _

end Command

end Bearer
