import Bearer.Decimal.Digits

/-! A report is an error as its reader sees it: a class, a message, and what the class adds. The causes of errors are
types of their own beside the operations that fail; each has a report. -/

namespace Bearer

/-- The classes of the library's own errors. -/
inductive ErrorClass where
  | any
  | configuration
  | conflictingCredentials
  | missingCredential
  | transport
  | tokenEndpoint
  | malformedTokenResponse
  | authentication
  | refreshFailed
  deriving DecidableEq

namespace ErrorClass

/-- The class that a class is a special case of. -/
def parent? : ErrorClass → Option ErrorClass
  | any => none
  | conflictingCredentials | missingCredential => some configuration
  | refreshFailed => some authentication
  | configuration | transport | tokenEndpoint | malformedTokenResponse | authentication => some any

/-- A class and all that it is a special case of, the most general last. -/
def lineage (c : ErrorClass) : List ErrorClass :=
  match c.parent? with
  | none => [c]
  | some p => c :: p :: (p.parent?).toList

end ErrorClass

/-- The service that the errors of a configuration name. -/
def serviceName : Text := "dropbox"

/-- The wording of an answer of the token endpoint that is no success. -/
def endpointMessage (status : Int) (body : Text) : Text :=
  ("Token endpoint returned " : Text) ++ Decimal.ofInt status ++ (": " : Text) ++ body

/-- An error as its reader sees it. -/
inductive Report where
  /-- An error of the library that has a class and a message alone. -/
  | plain (kind : ErrorClass) (message : Text)
  /-- An error in the configuration of a service. -/
  | configuration (kind : ErrorClass) (message service : Text)
  /-- A request that was not completed. -/
  | transport (message : Text) (cause : Option Report)
  /-- An answer of the token endpoint that is no success. -/
  | tokenEndpoint (status : Int) (body : Text)
  /-- A refresh that failed; `chained` if it was raised while its cause was handled. -/
  | refreshFailed (message : Text) (cause : Option Report) (chained : Bool)
  /-- An error that is not the library's own. -/
  | foreign (kind message : Text)
  /-- A time or duration out of bounds. -/
  | outOfRange

namespace Report

/-- The message of a report. -/
def message : Report → Text
  | plain _ message => message
  | configuration _ message _ => message
  | transport message _ => message
  | tokenEndpoint status body => endpointMessage status body
  | refreshFailed message _ _ => message
  | foreign _ message => message
  | outOfRange => []

/-- The class of a report, if it is one of the library's own. -/
def kind? : Report → Option ErrorClass
  | plain kind _ => some kind
  | configuration kind _ _ => some kind
  | transport _ _ => some .transport
  | tokenEndpoint _ _ => some .tokenEndpoint
  | refreshFailed _ _ _ => some .refreshFailed
  | foreign _ _ => none
  | outOfRange => none

end Report

end Bearer
