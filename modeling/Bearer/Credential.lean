import Bearer.Entries
import Bearer.Report
import Bearer.Text.Quoted
import Bearer.Time.Calendar

/-! A backend authenticates in one of two ways: with an access token that the caller manages, or with a refresh token,
client identifier and client secret that are exchanged for short-lived access tokens on demand. -/

namespace Bearer

/-- Credential options as the user gives them. -/
structure CredentialOptions where
  accessToken : Option Text := none
  refreshToken : Option Text := none
  clientId : Option Text := none
  clientSecret : Option Text := none
  deriving DecidableEq

/-- What is exchanged for access tokens. -/
structure RefreshKey where
  refreshToken : Text
  clientId : Text
  clientSecret : Text
  deriving DecidableEq

/-- The access token obtained last and the instant at which it expires. -/
structure HeldToken where
  token : Option Text := none
  expiresAt : Option Instant := none
  deriving DecidableEq

/-- What a backend authenticates with. -/
inductive Credential where
  | fixed (token : Text)
  | refreshable (key : RefreshKey) (held : HeldToken)
  deriving DecidableEq

/-- Why options do not make a credential. -/
inductive CredentialError where
  | conflicting
  | missingToken
  | missingClientId
  | missingClientSecret
  deriving DecidableEq

namespace CredentialError

/-- The wording of an error, meant for the user. -/
def message : CredentialError → Text
  | conflicting => "access_token and refresh_token can not be set at the same time"
  | missingToken => "access_token or refresh_token must be set"
  | missingClientId => "client_id must be set when refresh_token is set"
  | missingClientSecret => "client_secret must be set when refresh_token is set"

/-- The class of an error. -/
def kind : CredentialError → ErrorClass
  | conflicting => .conflictingCredentials
  | missingToken | missingClientId | missingClientSecret => .missingCredential

def report (e : CredentialError) : Report := .configuration e.kind e.message serviceName

end CredentialError

namespace CredentialOptions

/-- The options found in a mapping; other keys do not count. -/
def ofEntries (entries : Entries Text) : CredentialOptions where
  accessToken := entries.get? "access_token"
  refreshToken := entries.get? "refresh_token"
  clientId := entries.get? "client_id"
  clientSecret := entries.get? "client_secret"

/-- The credential that options describe. -/
def resolve (o : CredentialOptions) : Except CredentialError Credential :=
  match o.accessToken, o.refreshToken with
  | some _, some _ => .error .conflicting
  | none, none => .error .missingToken
  | some token, none => .ok (.fixed token)
  | none, some refreshToken =>
    match o.clientId, o.clientSecret with
    | none, _ => .error .missingClientId
    | some _, none => .error .missingClientSecret
    | some clientId, some clientSecret =>
      .ok (.refreshable ⟨refreshToken, clientId, clientSecret⟩ {})

/-- The description of options, which shows no secret. -/
def describe (o : CredentialOptions) : Text :=
  ("CredentialConfig(client_id=" : Text) ++ Text.quoted? o.clientId ++ (")" : Text)

end CredentialOptions

namespace HeldToken

/-- Whether the held token can be used for longer than `margin` from `now` on. Without a token or
an expiry it can not; there is no answer when the expiry less the margin is no instant. -/
def isFresh? (held : HeldToken) (now : Instant) (margin : Duration) : Option Bool :=
  match held.token, held.expiresAt with
  | some _, some expiresAt => (expiresAt.sub? margin).map fun t => now.micros < t.micros
  | _, _ => some false

theorem isFresh?_eq_none {held : HeldToken} {now : Instant} {margin : Duration} :
    held.isFresh? now margin = none ↔
      ∃ token t, held = ⟨some token, some t⟩ ∧ t.sub? margin = none := by
  obtain ⟨token, expiresAt⟩ := held
  cases token <;> cases expiresAt <;> simp only [isFresh?, reduceCtorEq, false_iff, not_exists]
  case some.some token t =>
    simp only [Option.map_eq_none_iff, HeldToken.mk.injEq, Option.some.injEq]
    exact ⟨fun h => ⟨token, t, ⟨rfl, rfl⟩, h⟩, fun ⟨_, _, ⟨_, ht⟩, h⟩ => ht ▸ h⟩
  all_goals
    rintro _ _ ⟨h, _⟩
    simp at h

end HeldToken

namespace Credential

def isRefreshable : Credential → Bool
  | fixed _ => false
  | refreshable _ _ => true

/-- The description of a credential, which shows no secret. -/
def describe : Credential → Text
  | fixed _ => "FixedCredential()"
  | refreshable key held =>
    ("RefreshableCredential(client_id=" : Text) ++ Text.quoted key.clientId
      ++ (", expires_at=" : Text)
      ++ (match held.expiresAt with
          | some t => t.fields
          | none => "None")
      ++ (")" : Text)

end Credential

end Bearer
