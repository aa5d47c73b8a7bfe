import Bearer.Http.Message

/-! The body of a successful answer of the token endpoint is a JSON object with a text `access_token` that is not
empty and a positive whole number `expires_in`. -/

namespace Bearer

/-- An access token and the number of seconds for which it is good. -/
structure Grant where
  token : Text
  seconds : Int
  token_ne_nil : token ≠ []
  seconds_pos : 0 < seconds
  deriving DecidableEq

/-- What makes a body no grant. -/
inductive GrantError where
  | notJson (why : Json.DocumentError)
  | notObject
  | missingToken
  | missingExpiry
  | nonPositiveExpiry (seconds : Int)
  deriving DecidableEq

namespace GrantError

/-- The wording of an error. -/
def message : GrantError → Text
  | notJson why => ("Token response is not JSON: " : Text) ++ why.message
  | notObject => "Token response is not a JSON object"
  | missingToken => "Token response is missing access_token"
  | missingExpiry => "Token response is missing expires_in"
  | nonPositiveExpiry seconds =>
    ("Token response has a non-positive expires_in: " : Text) ++ Decimal.ofInt seconds

def report (e : GrantError) : Report := .plain .malformedTokenResponse e.message

end GrantError

/-- Why no grant is read from a body. -/
inductive Refusal where
  | malformed (e : GrantError)
  | tooDeep (container : Json.Container)
  deriving DecidableEq

namespace Refusal

def report : Refusal → Report
  | malformed e => e.report
  | tooDeep container => .foreign "RecursionError" container.message

end Refusal

namespace Grant

/-- The address of the token endpoint, unless another is set. -/
def defaultUrl : Text := "https://api.dropboxapi.com/oauth2/token"

/-- The token that a document names. -/
def token? (members : Entries Json) : Option { t : Text // t ≠ [] } :=
  match members.get? "access_token" with
  | some (.string (c :: t)) => some ⟨c :: t, List.cons_ne_nil c t⟩
  | _ => none

theorem token?_eq_some_iff {members : Entries Json} {token : { t : Text // t ≠ [] }} :
    token? members = some token ↔ members.get? "access_token" = some (.string token.val) := by
  obtain ⟨token, hSome⟩ := token
  unfold token?
  split
  · next c t hGet =>
      rw [hGet]
      simp only [Option.some.injEq, Subtype.mk.injEq, Json.string.injEq]
  · next hOther =>
      obtain ⟨c, t, rfl⟩ := List.exists_cons_of_ne_nil hSome
      exact iff_of_false (by rintro ⟨⟩) (hOther c t)

/-- The grant in the members of an object. -/
def ofMembers (members : Entries Json) : Except GrantError Grant :=
  match token? members with
  | none => .error .missingToken
  | some token =>
    match members.get? "expires_in" with
    | some (.int seconds) =>
      if h : 0 < seconds then .ok ⟨token.val, seconds, token.property, h⟩
      else .error (.nonPositiveExpiry seconds)
    | _ => .error .missingExpiry

/-- The grant in a body, in which at most `nesting` containers may be open at once. -/
def read (body : Bytes) (nesting : Nat := Json.usualNesting) : Except Refusal Grant :=
  match Json.ofBytes body nesting with
  | .error (.tooDeep container) => .error (.tooDeep container)
  | .error why => .error (.malformed (.notJson why))
  | .ok (.object members) => (ofMembers members).mapError .malformed
  | .ok _ => .error (.malformed .notObject)

end Grant

end Bearer
