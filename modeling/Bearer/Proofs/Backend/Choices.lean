import Bearer.Backend.Builder
import Mathlib.Data.List.Induction

/-! Of all that is set for a backend only the last value of each setting counts. Building looks at those values, changes
none of them, and creates a client of its own only once nothing can fail any more. -/

namespace Bearer

variable {Given : Type}

/-- The things that can be set for a backend. -/
inductive Setting where
  | root
  | accessToken
  | refreshToken
  | clientId
  | clientSecret
  | transport
  | tokenUrl
  | refreshMargin
  | normalizer

/-- The values that a setting takes. -/
abbrev Setting.Value (Given : Type) : Setting → Type
  | root | accessToken | refreshToken | clientId | clientSecret | tokenUrl => Text
  | transport => Given
  | refreshMargin => Duration
  | normalizer => Text → Text

/-- The value that a choice gives to a setting, if it is a choice for that setting. -/
def Choice.value? : (s : Setting) → Choice Given → Option (s.Value Given)
  | .root, .root v
  | .accessToken, .accessToken v
  | .refreshToken, .refreshToken v
  | .clientId, .clientId v
  | .clientSecret, .clientSecret v
  | .transport, .transport v
  | .tokenUrl, .tokenUrl v
  | .refreshMargin, .refreshMargin v
  | .normalizer, .normalizer v => some v
  | _, _ => none

/-- Values for some of the settings. -/
abbrev Values (Given : Type) := (s : Setting) → Option (s.Value Given)

/-- The values that choices give to a setting, in order. -/
def given (s : Setting) (choices : List (Choice Given)) : List (s.Value Given) :=
  choices.filterMap (Choice.value? s)

/-- The last value that choices give to each setting. -/
def lastValues (choices : List (Choice Given)) : Values Given := fun s => (given s choices).getLast?

/-- A choice made after others is the last one for its setting. -/
theorem lastValues_concat (choices : List (Choice Given)) (c : Choice Given) :
    lastValues (choices ++ [c]) = fun s => (c.value? s).or (lastValues choices s) := by
  funext s
  rw [lastValues, lastValues, given, List.filterMap_append, List.getLast?_append]
  cases hValue : c.value? s <;> simp [given, hValue]

namespace Builder

/-- A builder with values in the place of its own. -/
def override (b : Builder Given) (values : Values Given) : Builder Given where
  root := (values .root).or b.root
  credential := {
    accessToken := (values .accessToken).or b.credential.accessToken
    refreshToken := (values .refreshToken).or b.credential.refreshToken
    clientId := (values .clientId).or b.credential.clientId
    clientSecret := (values .clientSecret).or b.credential.clientSecret }
  transport := (values .transport).or b.transport
  tokenUrl := (values .tokenUrl).getD b.tokenUrl
  refreshMargin := (values .refreshMargin).getD b.refreshMargin
  httpTimeout := b.httpTimeout
  normalize := (values .normalizer).getD b.normalize

theorem set_override (b : Builder Given) (values : Values Given) (c : Choice Given) :
    (b.override values).set c = b.override fun s => (c.value? s).or (values s) := by
  cases c <;> rfl

/-- A builder after choices is the one before with their last values. -/
theorem foldl_set (b : Builder Given) (choices : List (Choice Given)) :
    choices.foldl set b = b.override (lastValues choices) := by
  induction choices using List.reverseRecOn with
  | nil => rfl
  | append_singleton choices c ih =>
      rw [List.foldl_append, ih, lastValues_concat]
      exact set_override b (lastValues choices) c

end Builder

/-- The choice that an option in a mapping stands for, if its key is that of an option. -/
def Choice.ofOption? : Text × Text → Option (Choice Given)
  | (key, value) =>
    if key = "root" then some (.root value)
    else if key = "access_token" then some (.accessToken value)
    else if key = "refresh_token" then some (.refreshToken value)
    else if key = "client_id" then some (.clientId value)
    else if key = "client_secret" then some (.clientSecret value)
    else none

/-- The choices that the options of a mapping stand for, in the order in which the mapping is made. -/
def choicesOf (options : List (Text × Text)) : List (Choice Given) :=
  options.filterMap Choice.ofOption?

namespace Builder

theorem ofEntries_put (key value : Text) (options : Entries Text) :
    (ofEntries (options.put key value) : Builder Given)
      = (Choice.ofOption? (key, value)).toList.foldl set (ofEntries options) := by
  unfold Choice.ofOption? ofEntries CredentialOptions.ofEntries
  dsimp only
  split_ifs with hRoot hAccess hRefresh hId hSecret
  case neg =>
    simp only [Entries.get?_put_of_ne value options (Ne.symm hRoot),
      Entries.get?_put_of_ne value options (Ne.symm hAccess),
      Entries.get?_put_of_ne value options (Ne.symm hRefresh),
      Entries.get?_put_of_ne value options (Ne.symm hId),
      Entries.get?_put_of_ne value options (Ne.symm hSecret)]
    rfl
  all_goals
    subst_vars
    simp (disch := decide) only [Entries.get?_put, Entries.get?_put_of_ne]
    rfl

/-- The builder of a mapping is that of the choices which its options stand for. -/
theorem ofEntries_eq_foldl (options : List (Text × Text)) :
    (ofEntries (Entries.ofList options) : Builder Given) = (choicesOf options).foldl set {} := by
  induction options using List.reverseRecOn with
  | nil => rfl
  | append_singleton options option ih =>
      obtain ⟨key, value⟩ := option
      have hPut : Entries.ofList (options ++ [(key, value)])
          = (Entries.ofList options).put key value := by
        simp [Entries.ofList, Entries.putAll]
      rw [hPut, ofEntries_put, ih, choicesOf, choicesOf, List.filterMap_append, List.foldl_append]
      cases hChoice : (Choice.ofOption? (key, value) : Option (Choice Given)) <;> simp [hChoice]

end Builder

/-- The backend of a credential, the other values and the defaults of what is not set. -/
def Values.backend (values : Values Given) (credential : Credential) : Backend Given where
  root := (values .normalizer).getD Path.normalize ((values .root).getD [])
  credential
  tokenUrl := (values .tokenUrl).getD ("https://api.dropboxapi.com/oauth2/token" : Text)
  refreshMargin := (values .refreshMargin).getD .minute
  transport := match values .transport with
    | some transport => .given transport
    | none => .client (Binary64.ofInt 30) false

/-- What building comes to, by the values that are set. -/
inductive Values.Builds (values : Values Given) : Except Report (Backend Given) → Prop where
  | conflicting (token refreshToken : Text) (hAccess : values .accessToken = some token)
      (hRefresh : values .refreshToken = some refreshToken) :
      values.Builds (.error (.configuration .conflictingCredentials
        "access_token and refresh_token can not be set at the same time" "dropbox"))
  | missingToken (hAccess : values .accessToken = none) (hRefresh : values .refreshToken = none) :
      values.Builds (.error (.configuration .missingCredential
        "access_token or refresh_token must be set" "dropbox"))
  | fixed (token : Text) (hAccess : values .accessToken = some token)
      (hRefresh : values .refreshToken = none) :
      values.Builds (.ok (values.backend (.fixed token)))
  | missingClientId (refreshToken : Text) (hAccess : values .accessToken = none)
      (hRefresh : values .refreshToken = some refreshToken) (hId : values .clientId = none) :
      values.Builds (.error (.configuration .missingCredential
        "client_id must be set when refresh_token is set" "dropbox"))
  | missingClientSecret (refreshToken id : Text) (hAccess : values .accessToken = none)
      (hRefresh : values .refreshToken = some refreshToken) (hId : values .clientId = some id)
      (hSecret : values .clientSecret = none) :
      values.Builds (.error (.configuration .missingCredential
        "client_secret must be set when refresh_token is set" "dropbox"))
  | refreshable (refreshToken id secret : Text) (hAccess : values .accessToken = none)
      (hRefresh : values .refreshToken = some refreshToken) (hId : values .clientId = some id)
      (hSecret : values .clientSecret = some secret) :
      values.Builds (.ok (values.backend (.refreshable ⟨refreshToken, id, secret⟩ {})))

namespace Builder

/-- The transport of a backend: the one that was given, or a client with the timeout that was set. -/
def transportOf (b : Builder Given) : Transport Given :=
  match b.transport with
  | some transport => .given transport
  | none => .client (b.httpTimeout.getD Settings.defaultTimeout) false

/-- The backend of a builder, with a credential. -/
def backend (b : Builder Given) (credential : Credential) : Backend Given where
  root := b.normalize b.givenRoot
  credential
  tokenUrl := b.tokenUrl
  refreshMargin := b.refreshMargin
  transport := b.transportOf

end Builder

/-- The timeout of a client that was created for a backend. -/
def Transport.created : Transport Given → List Binary64
  | .given _ => []
  | .client timeout _ => [timeout]

theorem Site.connect_eq (site : Site Given) : Site.connect site =
    .ok site.builder.transportOf { site with clients := site.clients ++ site.builder.transportOf.created } := by
  obtain ⟨⟨root, credential, transport, tokenUrl, refreshMargin, httpTimeout, normalize⟩, clients⟩ := site
  cases transport with
  | some transport => simp [Builder.transportOf, Transport.created]; rfl
  | none => rfl

/-- All that building does: without a credential nothing, and else it creates the client that the backend needs. -/
theorem Site.build_eq (site : Site Given) : Site.build site =
    match site.builder.credential.resolve with
    | .error e => .error e site
    | .ok credential => .ok (site.builder.backend credential)
        { site with clients := site.clients ++ site.builder.transportOf.created } := by
  have hRun : Site.build site = match site.builder.credential.resolve with
      | .error e => .error e site
      | .ok credential => match Site.connect site with
        | .error e site => .error e site
        | .ok transport site' => .ok { site.builder.backend credential with transport } site' := by
    show (match site.builder.credential.resolve with
      | .error e => throw e
      | .ok credential => connect >>= fun transport => pure { site.builder.backend credential with transport } :
        EStateM CredentialError (Site Given) (Backend Given)) site = _
    cases site.builder.credential.resolve with
    | error e => rfl
    | ok credential =>
        show EStateM.bind connect _ site = _
        rw [EStateM.bind]
        cases connect site <;> rfl
  rw [hRun, Site.connect_eq]
  rfl

theorem Builder.build_eq (b : Builder Given) : b.build = b.credential.resolve.map b.backend := by
  rw [build, Site.build_eq]
  cases b.credential.resolve <;> rfl

theorem Builder.build_override (values : Values Given) :
    (({} : Builder Given).override values).build
      = (CredentialOptions.resolve ⟨values .accessToken, values .refreshToken, values .clientId,
          values .clientSecret⟩).map values.backend := by
  have hCredential : (({} : Builder Given).override values).credential
      = ⟨values .accessToken, values .refreshToken, values .clientId, values .clientSecret⟩ := by
    simp only [override, Option.or_none]
  rw [build_eq, hCredential]
  congr 1
  funext credential
  simp only [Values.backend, backend, transportOf, override, givenRoot, Option.or_none, Option.getD_none,
    Grant.defaultUrl, Settings.defaultTimeout]
  cases values .transport <;> rfl

theorem Values.builds_resolve (values : Values Given) :
    values.Builds (((CredentialOptions.resolve ⟨values .accessToken, values .refreshToken,
      values .clientId, values .clientSecret⟩).map values.backend).mapError
        CredentialError.report) := by
  cases hAccess : values .accessToken with
  | some token =>
      cases hRefresh : values .refreshToken with
      | some refreshToken => exact .conflicting token refreshToken hAccess hRefresh
      | none => exact .fixed token hAccess hRefresh
  | none =>
      cases hRefresh : values .refreshToken with
      | none => exact .missingToken hAccess hRefresh
      | some refreshToken =>
          cases hId : values .clientId with
          | none => exact .missingClientId refreshToken hAccess hRefresh hId
          | some id =>
              cases hSecret : values .clientSecret with
              | none => exact .missingClientSecret refreshToken id hAccess hRefresh hId hSecret
              | some secret =>
                  exact .refreshable refreshToken id secret hAccess hRefresh hId hSecret

/-- What is done with a builder. -/
inductive Use (Given : Type) where
  | set (c : Choice Given)
  | build

/-- The choices among uses. -/
def chosen (uses : List (Use Given)) : List (Choice Given) :=
  uses.filterMap fun
    | .set c => some c
    | .build => none

/-- A builder in use with the clients that were created, and what building it came to so far. -/
structure Session (Given : Type) where
  site : Site Given
  results : List (Except Report (Backend Given)) := []

namespace Session

/-- The session that begins with the builder of a mapping. -/
def ofOptions (options : List (Text × Text)) : Session Given := { site := { builder := .ofEntries (.ofList options) } }

/-- The session after one more use. -/
def use (s : Session Given) : Use Given → Session Given
  | .set c => { s with site.builder := s.site.builder.set c }
  | .build =>
    match Site.build s.site with
    | .ok b site => ⟨site, s.results ++ [.ok b]⟩
    | .error e site => ⟨site, s.results ++ [.error e.report]⟩

/-- The session after more uses. -/
def run (s : Session Given) (uses : List (Use Given)) : Session Given := uses.foldl use s

/-- What building comes to now. -/
def result (s : Session Given) : Except Report (Backend Given) := s.site.builder.build.mapError CredentialError.report

/-- A build leaves the builder as it is, and creates a client exactly if the backend that it makes needs one. -/
theorem use_build (s : Session Given) : s.use .build = {
    site := { s.site with clients := s.site.clients ++ match s.result with
      | .ok b => b.transport.created
      | .error _ => [] }
    results := s.results ++ [s.result] } := by
  rw [use, Site.build_eq, result, Builder.build_eq]
  cases s.site.builder.credential.resolve with
  | ok credential => rfl
  | error e => simp [Except.map, Except.mapError]

theorem results_use_build (s : Session Given) : (s.use .build).results = s.results ++ [s.result] := by rw [use_build]

theorem result_use_build (s : Session Given) : (s.use .build).result = s.result := by
  rw [use_build, result, result]

theorem builder_run (s : Session Given) (uses : List (Use Given)) :
    (s.run uses).site.builder = (chosen uses).foldl Builder.set s.site.builder := by
  induction uses generalizing s with
  | nil => rfl
  | cons u uses ih =>
      cases u with
      | set c => exact ih (s.use (.set c))
      | build => exact (ih (s.use .build)).trans (by rw [use_build]; rfl)

/-- A builder in use is the empty one with the last values of all that was chosen, be it in the
mapping that it was made from or later. -/
theorem builder_eq_override (options : List (Text × Text)) (uses : List (Use Given)) :
    ((ofOptions options : Session Given).run uses).site.builder
      = ({} : Builder Given).override (lastValues (choicesOf options ++ chosen uses)) := by
  rw [builder_run, ofOptions, Builder.ofEntries_eq_foldl, ← List.foldl_append, Builder.foldl_set]

/-- What one build does to a session: it has the result that the builder calls for, leaves the builder as it is, so
that building again has the same result, and creates a client if it succeeds and no transport was given, and none
else. -/
structure Built (values : Values Given) (s : Session Given) : Prop where
  result : (s.use .build).results = s.results ++ [s.result]
  builder : (s.use .build).site.builder = s.site.builder
  again : (s.run [.build, .build]).results = s.results ++ [s.result, s.result]
  failed : ∀ e, s.result = .error e → (s.use .build).site.clients = s.site.clients
  given : ∀ transport, values .transport = some transport → (s.use .build).site.clients = s.site.clients
  created : ∀ b, s.result = .ok b → values .transport = none →
    (s.use .build).site.clients = s.site.clients ++ [Binary64.ofInt 30]

theorem built_of_builds {values : Values Given} {s : Session Given} (hBuilds : values.Builds s.result) :
    Built values s where
  result := s.results_use_build
  builder := by rw [use_build]
  again := by
    show ((s.use .build).use .build).results = _
    rw [results_use_build, result_use_build, results_use_build, List.append_assoc, List.singleton_append]
  failed e hError := by simp only [use_build, hError, List.append_nil]
  given transport hGiven := by
    rw [use_build]
    generalize s.result = result at hBuilds
    cases hBuilds <;> simp [Values.backend, hGiven, Transport.created]
  created b hOk hNone := by
    rw [use_build]
    generalize s.result = result at hBuilds hOk
    cases hBuilds <;> cases hOk <;> simp [Values.backend, hNone, Transport.created]

/-- However a builder is used, building it comes to what the last value of each setting calls for, and does nothing
beside. The order of choices for different settings does not count. -/
theorem build_by_last_values (options : List (Text × Text)) (uses : List (Use Given)) :
    let choices := choicesOf options ++ chosen uses
    let s := (ofOptions options : Session Given).run uses
    (lastValues choices).Builds s.result ∧ Built (lastValues choices) s ∧
    ∀ (options' : List (Text × Text)) (uses' : List (Use Given)),
      let s' := (ofOptions options' : Session Given).run uses'
      let choices' := choicesOf options' ++ chosen uses'
      (lastValues choices' = lastValues choices → s'.result = s.result) ∧
      ((∀ setting, given setting choices' = given setting choices) → s'.result = s.result) := by
  intro choices s
  have hBuilder : s.site.builder = ({} : Builder Given).override (lastValues choices) :=
    builder_eq_override options uses
  have hBuilds : (lastValues choices).Builds s.result := by
    have hResult := (lastValues choices).builds_resolve
    rwa [← Builder.build_override, ← hBuilder] at hResult
  refine ⟨hBuilds, built_of_builds hBuilds, ?_⟩
  intro options' uses' s' choices'
  have hBuilder' : s'.site.builder = ({} : Builder Given).override (lastValues choices') :=
    builder_eq_override options' uses'
  have hSame (hLast : lastValues choices' = lastValues choices) : s'.result = s.result := by
    rw [result, hBuilder', hLast, ← hBuilder, ← result]
  refine ⟨hSame, fun hGiven => hSame ?_⟩
  funext setting
  rw [lastValues, lastValues, hGiven]

end Session

end Bearer
