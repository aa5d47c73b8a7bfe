import Bearer.Decimal.Numeral
import Bearer.Http.HostName
import Bearer.Text.Quoted

/-! The parts of an address in their normal form: scheme and host in lower case, the port left out if it is the usual
one of the scheme, dot segments of the path removed, and everything escaped that does not stand for itself. -/

namespace Bearer

/-- An address by its parts, each in its written form. A host of hexadecimal groups is kept without
its brackets. -/
structure Url where
  scheme : Text := []
  user : Text := []
  host : Text := []
  port : Option Int := none
  path : Text := []
  query : Option Text := none
  fragment : Option Text := none

/-- Why a text is no address. -/
inductive UrlError where
  | tooLong
  | unprintable (c : CodePoint) (position : Nat)
  | host (fault : HostName.Fault) (given : Text)
  | port (given : Text)
  | pathBehindHost
  | doubleSlash
  | leadingColon
  deriving DecidableEq

namespace UrlError

/-- The wording of an error. -/
def message : UrlError → Text
  | tooLong => "URL too long"
  | unprintable c position =>
    ("Invalid non-printable ASCII character in URL, " : Text) ++ Text.quoted [c]
      ++ (" at position " : Text) ++ Decimal.ofNat position ++ ("." : Text)
  | host .decimalAddress given => ("Invalid IPv4 address: " : Text) ++ given.quoted
  | host .bracketedAddress given => ("Invalid IPv6 address: " : Text) ++ given.quoted
  | host .name given => ("Invalid IDNA hostname: " : Text) ++ given.quoted
  | port given => ("Invalid port: " : Text) ++ given.quoted
  | pathBehindHost => "For absolute URLs, path must be empty or begin with '/'"
  | doubleSlash => "Relative URLs cannot have a path starting with '//'"
  | leadingColon => "Relative URLs cannot have a path starting with ':'"

end UrlError

namespace Url

/-- The greatest length of an address. -/
def maxLength : Nat := 65536

def isLetter (c : CodePoint) : Bool :=
  match c with
  | .scalar c => c.isAlpha
  | .surrogate _ => false

def isSchemePoint (c : CodePoint) : Bool :=
  isLetter c || c.isDigit || c == .scalar '+' || c == .scalar '.' || c == .scalar '-'

/-- The scheme in front of a colon, which may be empty, and what follows the colon. -/
def takeScheme (t : Text) : Text × Text :=
  match t.span isSchemePoint with
  | ([], .scalar ':' :: rest) => ([], rest)
  | (c :: more, .scalar ':' :: rest) => if isLetter c then (c :: more, rest) else ([], t)
  | _ => ([], t)

/-- What stands between two slashes and the path, and what follows. -/
def takeAuthority : Text → Text × Text
  | .scalar '/' :: .scalar '/' :: rest =>
    rest.span fun c => !(c == .scalar '/' || c == .scalar '?' || c == .scalar '#')
  | t => ([], t)

/-- The path, the query and the fragment. -/
def takePath (t : Text) : Text × Option Text × Option Text :=
  let (front, fragment) := match Text.cut? (.scalar '#') t with
    | some (front, fragment) => (front, some fragment)
    | none => (t, none)
  match Text.cut? (.scalar '?') front with
  | some (path, query) => (path, some query, fragment)
  | none => (front, none, fragment)

/-- The text behind the last occurrence of a code point, and the text in front of it. -/
def cutLast (separator : CodePoint) (t : Text) : Text × Text :=
  match Text.cut? separator t.reverse with
  | some (after, before) => (before.reverse, after.reverse)
  | none => ([], t)

/-- The host that an authority without user begins with, and what follows it. Brackets hold all up
to the last closing one. -/
def takeHost (t : Text) : Text × Text :=
  let bare := t.span fun c => c != .scalar ':'
  match t with
  | .scalar '[' :: _ =>
    if t.contains (.scalar ']') then
      let (inside, after) := cutLast (.scalar ']') t
      (inside ++ [.scalar ']'], after)
    else bare
  | _ => bare

/-- The port in a text behind the host, the colon apart. -/
def readPort (scheme t : Text) : Except UrlError (Option Int) :=
  let given := match t with
    | .scalar ':' :: rest => rest
    | _ => t
  if given.isEmpty then .ok none
  else
    match Decimal.readNumeral? given with
    | none => .error (.port given)
    | some n =>
      let usual : List (Text × Int) :=
        [("ftp", 21), ("http", 80), ("https", 443), ("ws", 80), ("wss", 443)]
      .ok (if usual.lookup scheme = some n then none else some n)

/-- The segments without `.` and, with the one in front of it, `..`. -/
def dropDots : (done : List Text) → List Text → List Text
  | done, [] => done
  | done, s :: rest =>
    if s = Text.ofString "." then dropDots done rest
    else if s = Text.ofString ".." then
      dropDots (if done = [[]] then done else done.dropLast) rest
    else dropDots (done ++ [s]) rest

/-- A path without dot segments. -/
def normalizePath (path : Text) : Text :=
  Text.join [.scalar '/'] (dropDots [] (Text.splitOn (.scalar '/') path))

/-- The first code point of ASCII that is not printable, and its position. -/
def unprintable? (t : Text) : Option (CodePoint × Nat) :=
  t.zipIdx.find? fun (c, _) => c.toNat < 0x20 || c.toNat == 0x7F

/-- What must hold of a path, by the parts in front of it. -/
def checkPath (hasScheme hasAuthority : Bool) (path : Text) : Except UrlError Unit :=
  if hasAuthority then
    if path.isEmpty || path.head? == some (.scalar '/') then .ok () else .error .pathBehindHost
  else if hasScheme then .ok ()
  else if (Text.ofString "//").isPrefixOf path then .error .doubleSlash
  else if path.head? == some (.scalar ':') then .error .leadingColon
  else .ok ()

/-- The address that a text denotes. -/
def read (t : Text) : Except UrlError Url := do
  if maxLength < t.length then throw .tooLong
  if let some (c, position) := unprintable? t then throw (.unprintable c position)
  let (scheme, rest) := takeScheme t
  let (authority, rest) := takeAuthority rest
  let (path, query, fragment) := takePath rest
  let (user, rest) := cutLast (.scalar '@') authority
  let (host, rest) := takeHost rest
  let user := Escape.quote Escape.isUserSafe user
  let written ← (HostName.encode host).mapError (.host · host)
  let port ← readPort scheme rest
  let hasScheme := !scheme.isEmpty
  let hasAuthority := !user.isEmpty || !written.isEmpty || port.isSome
  checkPath hasScheme hasAuthority path
  let path := if hasScheme || hasAuthority then normalizePath path else path
  return {
    scheme := scheme.toLower, user, host := written, port
    path := Escape.quote Escape.isPathSafe path
    query := query.map (Escape.quote Escape.isQuerySafe)
    fragment := fragment.map (Escape.quote Escape.isFragmentSafe) }

/-- The user, host and port as they are written. -/
def authority (u : Url) : Text :=
  (if u.user.isEmpty then [] else u.user ++ [.scalar '@'])
    ++ (if u.host.contains (.scalar ':') then .scalar '[' :: u.host ++ [.scalar ']'] else u.host)
    ++ (match u.port with
        | some n => .scalar ':' :: Decimal.ofInt n
        | none => [])

/-- The address as it is written. -/
def write (u : Url) : Text :=
  (if u.scheme.isEmpty then [] else u.scheme ++ [.scalar ':'])
    ++ (if u.authority.isEmpty then [] else .scalar '/' :: .scalar '/' :: u.authority)
    ++ u.path
    ++ (match u.query with
        | some q => .scalar '?' :: q
        | none => [])
    ++ (match u.fragment with
        | some f => .scalar '#' :: f
        | none => [])

/-- Whether an address names a scheme and a host. -/
def isAbsolute (u : Url) : Bool := !u.scheme.isEmpty && !u.host.isEmpty

/-- The address that a client without an address of its own goes to: an absolute one as it is, and
of another one the path below the root and the query. -/
def target (u : Url) : Url :=
  if u.isAbsolute then u
  else { path := .scalar '/' :: u.path.dropWhile (· == .scalar '/'), query := u.query }

/-- The name of the user in the address. -/
def userName (u : Url) : Text := Escape.unquote (u.user.takeWhile (· != .scalar ':'))

/-- The password in the address. -/
def password (u : Url) : Text := Escape.unquote ((u.user.dropWhile (· != .scalar ':')).drop 1)

end Url

end Bearer
