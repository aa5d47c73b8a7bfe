import Bearer.Decimal.Numeral
import Bearer.Text.Quoted

/-! What the arguments of a command line ask for. Flags stand anywhere; a long one may be cut short as long as only
one flag begins so. -/

namespace Bearer.Command

/-- What a flag asks for. -/
inductive Flag where
  | help
  | json
  deriving DecidableEq

namespace Flag

/-- All spellings of a flag, as errors name it. -/
def spellings : Flag → Text
  | help => "-h/--help"
  | json => "--json"

end Flag

/-- Whose arguments are read: those of the program, or of a command. -/
inductive Scope where
  | program
  | check
  | token
  deriving DecidableEq

namespace Scope

/-- The name in front of errors. -/
def name : Scope → Text
  | program => "extradrop"
  | check => "extradrop check"
  | token => "extradrop token"

/-- The flags and their spellings. -/
def flags : Scope → List (Text × Flag)
  | program | check => [("-h", .help), ("--help", .help)]
  | token => [("-h", .help), ("--help", .help), ("--json", .json)]

/-- How arguments may be given. -/
def usage : Scope → Text
  | program => "usage: extradrop [-h] \x7bcheck,token\x7d ...\n"
  | check => "usage: extradrop check [-h]\n"
  | token => "usage: extradrop token [-h] [--json]\n"

/-- The text that explains the arguments. -/
def help (s : Scope) : Text :=
  s.usage ++ match s with
    | program =>
      ("\nResolve and refresh Dropbox backend credentials from DROPBOX_* settings\n" : Text)
        ++ ("\npositional arguments:\n" : Text)
        ++ ("  \x7bcheck,token\x7d\n" : Text)
        ++ ("    check        Validate the credential configuration without network access\n" : Text)
        ++ ("    token        Print a valid access token, refreshing it if needed\n" : Text)
        ++ ("\noptions:\n" : Text)
        ++ ("  -h, --help     show this help message and exit\n" : Text)
    | check =>
      ("\noptions:\n" : Text)
        ++ ("  -h, --help  show this help message and exit\n" : Text)
    | token =>
      ("\noptions:\n" : Text)
        ++ ("  -h, --help  show this help message and exit\n" : Text)
        ++ ("  --json      Print the token and its expiry as JSON\n" : Text)

end Scope

/-- How a command line is misused. -/
inductive Misuse where
  | missingCommand
  | unknownCommand (given : Text)
  | ambiguous (given : Text) (candidates : List Text)
  /-- A value for a flag that takes none. -/
  | needlessValue (flag : Flag) (value : Text)
  | unrecognized (arguments : List Text)

namespace Misuse

def message : Misuse → Text
  | missingCommand => "the following arguments are required: command"
  | unknownCommand given =>
    ("argument command: invalid choice: " : Text) ++ given.quoted
      ++ (" (choose from 'check', 'token')" : Text)
  | ambiguous given candidates =>
    ("ambiguous option: " : Text) ++ given ++ (" could match " : Text)
      ++ Text.join ", " candidates
  | needlessValue flag value =>
    ("argument " : Text) ++ flag.spellings ++ (": ignored explicit argument " : Text)
      ++ value.quoted
  | unrecognized arguments =>
    ("unrecognized arguments: " : Text) ++ Text.join " " arguments

end Misuse

/-- Why the program stops before it does anything. -/
inductive Stop where
  | help (s : Scope)
  | misuse (s : Scope) (why : Misuse)

namespace Stop

/-- The exit status. -/
def status : Stop → Nat
  | help _ => 0
  | misuse _ _ => 2

/-- What is written to standard output. -/
def output : Stop → Text
  | help s => s.help
  | misuse _ _ => []

/-- What is written to standard error. -/
def errors : Stop → Text
  | help _ => []
  | misuse s why => s.usage ++ s.name ++ (": error: " : Text) ++ why.message ++ ("\n" : Text)

end Stop

/-- A value that is attached to a flag, behind an equals sign or not. -/
structure Attached where
  value : Text
  behindEquals : Bool

/-- What an argument is taken for. -/
inductive Token where
  | word
  | flag (f : Flag) (spelling : Text) (attached : Option Attached)
  | unknownFlag
  | ambiguousFlag (candidates : List Text)

/-- Whether a text is a negative number, which is never taken for a flag. -/
def isNegativeNumber (t : Text) : Bool :=
  let t := if t.getLast? == some (.scalar '\n') then t.dropLast else t
  match t with
  | .scalar '-' :: rest =>
    let rest := rest.map Decimal.asciiDigit
    let behind := rest.dropWhile CodePoint.isDigit
    match behind with
    | [] => !rest.isEmpty
    | .scalar '.' :: fraction => !fraction.isEmpty && fraction.all CodePoint.isDigit
    | _ => false
  | _ => false

/-- The flags of a scope that begin as an argument does, each with its spelling and the value that
the argument then attaches to it. -/
def candidates (s : Scope) (argument : Text) : List (Flag × Text × Option Attached) :=
  if (Text.ofString "--").isPrefixOf argument then
    let (front, attached) : Text × Option Attached :=
      match Text.cut? (.scalar '=') argument with
      | some (front, value) => (front, some ⟨value, true⟩)
      | none => (argument, none)
    s.flags.filterMap fun (spelling, f) =>
      if front.isPrefixOf spelling then some (f, spelling, attached) else none
  else
    s.flags.filterMap fun (spelling, f) =>
      if spelling = argument.take 2 then some (f, spelling, some ⟨argument.drop 2, false⟩)
      else none

/-- What an argument in front of `--` is taken for. -/
def classify (s : Scope) (argument : Text) : Token :=
  match argument with
  | .scalar '-' :: _ :: _ =>
    match s.flags.lookup argument with
    | some f => .flag f argument none
    | none =>
      let exact := (Text.cut? (.scalar '=') argument).bind fun (front, value) =>
        (s.flags.lookup front).map fun f => Token.flag f front (some ⟨value, true⟩)
      match exact with
      | some t => t
      | none =>
        match candidates s argument with
        | [(f, spelling, attached)] => .flag f spelling attached
        | [] =>
          if isNegativeNumber argument || argument.contains (.scalar ' ') then .word
          else .unknownFlag
        | several => .ambiguousFlag (several.map (·.2.1))
  | _ => .word

/-- The flags behind a short one in the same argument. What is no flag there ends them and is left
over. -/
def shortFlags (s : Scope) (f : Flag) : (value : Text) → (behindEquals : Bool) →
    Except Misuse (List Flag × List Text)
  | [], _ => .error (.needlessValue f [])
  | c :: rest, behindEquals =>
    if behindEquals || c = .scalar '-' then .error (.needlessValue f (c :: rest))
    else
      match s.flags.lookup [.scalar '-', c] with
      | none => .ok ([f], [.scalar '-' :: c :: rest])
      | some g =>
        match rest with
        | [] => .ok ([f, g], [])
        | .scalar '=' :: value => .error (.needlessValue g value)
        | d :: more =>
          (shortFlags s g (d :: more) false).map fun (flags, left) => (f :: flags, left)

/-- The flags that an argument stands for, and what is left over of it. -/
def expandFlag (s : Scope) (f : Flag) (spelling : Text) :
    Option Attached → Except Misuse (List Flag × List Text)
  | none => .ok ([f], [])
  | some attached =>
    if spelling.length = 2 then shortFlags s f attached.value attached.behindEquals
    else .error (.needlessValue f attached.value)

/-- The first argument in front of `--` that could stand for several flags. -/
def checkAmbiguous (s : Scope) (arguments : List Text) : Except Stop Unit :=
  match arguments with
  | [] => .ok ()
  | a :: rest =>
    if a = Text.ofString "--" then .ok ()
    else match classify s a with
      | .ambiguousFlag names => .error (.misuse s (.ambiguous a names))
      | _ => checkAmbiguous s rest

/-- Follows the flags of one argument: help stops the program. -/
def follow (s : Scope) (f : Flag) (spelling : Text) (attached : Option Attached) :
    Except Stop (List Flag × List Text) :=
  match expandFlag s f spelling attached with
  | .error why => .error (.misuse s why)
  | .ok (flags, left) => if flags.contains .help then .error (.help s) else .ok (flags, left)

/-- The flags among the arguments of a command, and the arguments that it does not know. -/
def readFlags (s : Scope) : List Text → Except Stop (List Flag × List Text)
  | [] => .ok ([], [])
  | a :: rest =>
    if a = Text.ofString "--" then .ok ([], a :: rest)
    else match classify s a with
      | .flag f spelling attached => do
        let (flags, left) ← follow s f spelling attached
        let (more, unknown) ← readFlags s rest
        return (flags ++ more, left ++ unknown)
      | _ => (readFlags s rest).map fun (flags, unknown) => (flags, a :: unknown)

/-- What the program is asked to do. -/
inductive Order where
  | check
  | token (asJson : Bool)
  deriving DecidableEq

/-- The order that a command and its arguments give; `unknown` holds what stood in front of it and
was not known. -/
def readCommand (unknown : List Text) (command : Text) (arguments : List Text) :
    Except Stop Order := do
  let (s, order) ← show Except Stop (Scope × (List Flag → Order)) from
    if command = Text.ofString "check" then .ok (.check, fun _ => .check)
    else if command = Text.ofString "token" then
      .ok (.token, fun flags => .token (flags.contains .json))
    else .error (.misuse .program (.unknownCommand command))
  checkAmbiguous s arguments
  let (flags, more) ← readFlags s arguments
  match unknown ++ more with
  | [] => return order flags
  | left => throw (.misuse .program (.unrecognized left))

/-- The order in arguments, those that stood in front of them and were not known left over. -/
def readOrder (unknown : List Text) : List Text → Except Stop Order
  | [] => .error (.misuse .program .missingCommand)
  | a :: rest =>
    if a = Text.ofString "--" then
      match rest with
      | [] => .error (.misuse .program .missingCommand)
      | _ :: _ => .error (.misuse .program (.unknownCommand a))
    else match classify .program a with
      | .word => readCommand unknown a rest
      | .flag f spelling attached => do
        let (_, left) ← follow .program f spelling attached
        readOrder (unknown ++ left) rest
      | _ => readOrder (unknown ++ [a]) rest

/-- What the arguments of the program ask for. -/
def order (arguments : List Text) : Except Stop Order := do
  checkAmbiguous .program arguments
  readOrder [] arguments

end Bearer.Command
