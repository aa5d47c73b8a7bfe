import Bearer.Proofs.Command.Parts
import Bearer.Proofs.Settings.Reading

/-! `check` resolves the credential and normalizes the root without building anything, and prints both. `token` builds
a backend, with a margin that must be a duration. -/

namespace Bearer.Command

variable {Given : Type}

/-- What a check finds out: the credential and the root, or the error that stops it. -/
def findings (s : Settings) : Except Report (Credential × Text) :=
  ((CredentialOptions.ofEntries s.options).resolve.map fun credential =>
    (credential, Path.normalize (s.root.getD []))).mapError CredentialError.report

/-- The end of the program with an error: the library's own errors are for the user to mend. -/
def stopped (r : Report) : Transcript :=
  match r.kind? with
  | some _ => { pieces := [complaint r.message], ending := .exit 1 }
  | none => { ending := .raised r }

/-- The line that tells of a credential. -/
def modeLine (credential : Credential) : Text :=
  ("Credential: " : Text) ++ (if credential.isRefreshable then "refreshable" else "fixed" : Text)

/-- The line that tells of a root. -/
def rootLine (root : Text) : Text := ("Root: " : Text) ++ root

/-- What the program writes of what a check finds out. A root that standard output refuses stops it. -/
def told (place : Place) : Except Report (Credential × Text) → Transcript
  | .error r => stopped r
  | .ok (credential, root) =>
    let first : Piece := .out (modeLine credential ++ ("\n" : Text))
    match place.strict, Utf8.encode (rootLine root) with
    | true, .error fault => { pieces := [first], ending := .raised (unprintable fault) }
    | _, _ => { pieces := [first, .out (rootLine root ++ ("\n" : Text))], ending := .exit 0 }

theorem prints_modeLine (place : Place) (credential : Credential) : place.Prints (modeLine credential) := by
  intro _
  unfold modeLine
  split <;> decide

theorem prints_rootLine {place : Place} {root : Text} : place.Prints (rootLine root) ↔ place.Prints root := by
  have hHead : Text.IsScalar "Root: " := by decide
  simp only [Place.Prints, rootLine, Text.isScalar_append, hHead, true_and]

theorem told_of_prints {place : Place} {root : Text} (hPrints : place.Prints root) (credential : Credential) :
    told place (.ok (credential, root)) = {
      pieces := [.out (modeLine credential ++ ("\n" : Text)), .out (rootLine root ++ ("\n" : Text))]
      ending := .exit 0 } := by
  rw [told]
  split
  · next fault hStrict hFault => exact absurd (prints_rootLine.mpr hPrints) (not_prints hStrict hFault)
  · rfl

theorem told_of_refused {place : Place} {root : Text} (hStrict : place.strict = true) {fault : EncodeFault}
    (hFault : Utf8.encode (rootLine root) = .error fault) (credential : Credential) :
    told place (.ok (credential, root)) = {
      pieces := [.out (modeLine credential ++ ("\n" : Text))], ending := .raised (unprintable fault) } := by
  rw [told, hStrict, hFault]

theorem transcript_check (place : Place) (s : Settings) : transcript place (check place s) = told place (findings s) := by
  unfold transcript findings check
  cases (CredentialOptions.ofEntries s.options).resolve with
  | error e => cases e <;> rfl
  | ok credential =>
      have hMode := say_of_prints (prints_modeLine place credential) {}
      show ended place ((say place (modeLine credential) >>= fun _ =>
        say place (rootLine (Path.normalize (s.root.getD [])))).run {}) = told place (.ok (credential, _))
      rw [run_bind_of_ok hMode]
      rcases prints_or_refuses place (rootLine (Path.normalize (s.root.getD []))) with hPrints | ⟨hStrict, fault, hFault⟩
      · have hRoot := say_of_prints hPrints { pieces := [.out (modeLine credential ++ ("\n" : Text))] }
        rw [told_of_prints (prints_rootLine.mp hPrints)]
        exact congrArg (ended place) hRoot
      · have hRoot := say_of_refused hStrict hFault { pieces := [.out (modeLine credential ++ ("\n" : Text))] }
        rw [told_of_refused hStrict hFault]
        exact congrArg (ended place) hRoot

theorem ending_told {place : Place} {found : Except Report (Credential × Text)} :
    (told place found).ending = .exit 0 ↔ ∃ credential root, found = .ok (credential, root) ∧ place.Prints root := by
  constructor
  · intro hExit
    cases found with
    | error r =>
        simp only [told, stopped] at hExit
        split at hExit <;> cases hExit
    | ok pair =>
        obtain ⟨credential, root⟩ := pair
        rcases prints_or_refuses place (rootLine root) with hPrints | ⟨hStrict, fault, hFault⟩
        · exact ⟨credential, root, rfl, prints_rootLine.mp hPrints⟩
        · rw [told_of_refused hStrict hFault] at hExit
          cases hExit
  · rintro ⟨credential, root, rfl, hPrints⟩
    rw [told_of_prints hPrints]

/-- The backend that settings make, or the error that stops its building. -/
def built (s : Settings) : Except Report (Backend Given) :=
  match Builder.ofSettings? s with
  | none => .error .outOfRange
  | some builder => builder.build.mapError CredentialError.report

/-- The run in which a backend has been built and prints a token. -/
def asked (place : Place) (s : Settings) (asJson : Bool) (b : Backend Unit) : Transcript :=
  ended place ((deliver place (sinkOf s) asJson b).run {
    pieces := opened place (sinkOf s) b ++ write (sinkOf s) .debug (b.built place.now)
    clients := b.transport.created })

theorem transcript_token (place : Place) (s : Settings) (asJson : Bool) :
    transcript place (token place s asJson) = match built s with
      | .ok b => asked place s asJson b
      | .error r => stopped r := by
  unfold transcript token built
  cases Builder.ofSettings? s with
  | none => rfl
  | some builder =>
      have hBuild := run_build place (sinkOf s) builder {}
      dsimp only
      cases hBuilt : builder.build with
      | error e =>
          rw [hBuilt] at hBuild
          rw [run_bind_of_error hBuild]
          cases e <;> rfl
      | ok b =>
          rw [hBuilt] at hBuild
          rw [run_bind_of_ok hBuild]
          rfl

/-- What a backend has that a check tells of. -/
def profile (b : Backend Given) : Credential × Text := (b.credential, b.root)

theorem profile_of_built {s : Settings} (hNonneg : 0 ≤ s.refreshMargin)
    (hMargin : s.refreshMargin ≤ Duration.mostSeconds) :
    (built s : Except Report (Backend Given)).map profile = findings s := by
  unfold built findings Builder.ofSettings?
  cases hDuration : Duration.ofSeconds? s.refreshMargin with
  | none =>
      have hWide := (Duration.ofSeconds?_eq_none hNonneg).mp hDuration
      omega
  | some margin =>
      simp only [Option.map_some, Builder.build_eq, Builder.ofEntries]
      cases (CredentialOptions.ofEntries s.options).resolve with
      | error e => rfl
      | ok credential => simp [Except.map, Except.mapError, profile, Builder.backend, Builder.givenRoot,
          Settings.root_of_options]

theorem built_of_wide_margin {s : Settings} (hNonneg : 0 ≤ s.refreshMargin)
    (hWide : Duration.mostSeconds < s.refreshMargin) :
    (built s : Except Report (Backend Given)) = .error .outOfRange := by
  have hDuration := (Duration.ofSeconds?_eq_none hNonneg).mpr hWide
  simp [built, Builder.ofSettings?, hDuration]

theorem findings_ne_outOfRange (s : Settings) : findings s ≠ .error .outOfRange := by
  unfold findings
  cases (CredentialOptions.ofEntries s.options).resolve with
  | error e => exact fun h => by cases e <;> cases h
  | ok credential => exact fun h => by cases h

/-- For settings that are valid, a check finds a credential and a root exactly when there is a backend, and they are
those of the backend; and it fails with the error that the building fails with. This holds if and only if the margin
is a duration; with a longer one no backend is built, whatever the check finds. `check` tells what the check finds, and
so it succeeds if there is something to tell and standard output takes the root; `token` builds the backend. -/
theorem check_agrees_with_build {place : Place} {s : Settings}
    (hRead : Settings.read place.sources = .valid s) :
    (findings s = (built s : Except Report (Backend Given)).map profile
      ↔ s.refreshMargin ≤ Duration.mostSeconds) ∧
    (Duration.mostSeconds < s.refreshMargin →
      (built s : Except Report (Backend Given)) = .error .outOfRange) ∧
    transcript place (obey place .check) = told place (findings s) ∧
    ((transcript place (obey place .check)).ending = .exit 0 ↔
      ∃ credential root, findings s = .ok (credential, root) ∧ place.Prints root) ∧
    ∀ asJson, transcript place (obey place (.token asJson)) = match built s with
      | .ok b => asked place s asJson b
      | .error r => stopped r := by
  have hNonneg := Settings.refreshMargin_nonneg hRead
  have hCheck : transcript place (obey place .check) = told place (findings s) := by
    rw [obey, hRead]
    exact transcript_check place s
  refine ⟨⟨fun hSame => ?_, fun hMargin => (profile_of_built hNonneg hMargin).symm⟩,
    built_of_wide_margin hNonneg, hCheck, ?_, fun asJson => ?_⟩
  · refine Int.not_lt.mp fun hWide => ?_
    rw [built_of_wide_margin hNonneg hWide] at hSame
    exact findings_ne_outOfRange s hSame
  · rw [hCheck]
    exact ending_told
  · rw [obey, hRead]
    exact transcript_token place s asJson

/-- A place where an access token, a root and a margin are set, and no server is in reach. -/
def placeWith (root : Text) (margin : Int) : Place where
  now := .epoch
  sources := { keywords := [("access_token", .string "t"), ("root", .string root),
    ("refresh_margin_seconds", .int margin)] }
  send r := Client.exchange false r (.broken ⟨"ConnectError", "All connection attempts failed"⟩)
  strict := true

/-- The settings read there. -/
def settingsAt (root : Text) (margin : Int) : Settings :=
  { Settings.byDefault with root := some root, accessToken := some "t", refreshMargin := margin }

/-- The longest margin that is a duration: what the check finds is what is built. -/
theorem longest_margin_agrees :
    let place := placeWith "docs//2024" 86399999999999
    let s := settingsAt "docs//2024" 86399999999999
    Settings.read place.sources = .valid s ∧
    (built s : Except Report (Backend Unit)).map profile = .ok (.fixed "t", "/docs/2024/") ∧
    (transcript place (obey place .check)).ending = .exit 0 := by
  intro place s
  have hRead : Settings.read place.sources = .valid s := Settings.read_of_keywords _
  obtain ⟨hAgree, -, -, hEnds, -⟩ := @check_agrees_with_build Unit _ _ hRead
  have hFound : findings s = .ok (.fixed "t", "/docs/2024/") := rfl
  refine ⟨hRead, ?_, hEnds.mpr ⟨_, _, hFound, fun _ => by decide⟩⟩
  rw [← hAgree.mpr (by decide), hFound]

/-- One second more passes the settings and the check, and no backend can be built. -/
theorem longer_margin_passes_check :
    let place := placeWith "docs//2024" 86400000000000
    let s := settingsAt "docs//2024" 86400000000000
    Settings.read place.sources = .valid s ∧
    (transcript place (obey place .check)).ending = .exit 0 ∧
    (built s : Except Report (Backend Unit)) = .error .outOfRange ∧
    (transcript place (obey place (.token false))).ending = .raised .outOfRange := by
  intro place s
  have hRead : Settings.read place.sources = .valid s := Settings.read_of_keywords _
  have hFound : findings s = .ok (.fixed "t", "/docs/2024/") := rfl
  refine ⟨hRead, ?_, rfl, ?_⟩
  · rw [obey, hRead]
    show (transcript place (check place s)).ending = .exit 0
    rw [transcript_check, hFound, told_of_prints fun _ => by decide]
  · rw [obey, hRead]
    rfl

end Bearer.Command
