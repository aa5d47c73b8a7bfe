import Bearer.Decimal.Reading
import Bearer.Entries

/-! A file of variables holds one assignment `NAME=value` a line, comments behind `#`, and perhaps the word `export`
in front of a name. Values may stand between quotes, then also over several lines. -/

namespace Bearer.Variables

/-- White space, the separators U+001C to U+001F included. -/
def isBlank (c : CodePoint) : Bool :=
  Decimal.isBlank c || (0x1C ≤ c.toNat && c.toNat ≤ 0x1F)

def isLineFeed (c : CodePoint) : Bool := c == .scalar '\n'

/-- White space inside a line. -/
def isInlineBlank (c : CodePoint) : Bool := isBlank c && !isLineFeed c

/-- Every line break as a single line feed. -/
def normalizeBreaks : Text → Text
  | [] => []
  | .scalar '\r' :: .scalar '\n' :: rest => .scalar '\n' :: normalizeBreaks rest
  | .scalar '\r' :: rest => .scalar '\n' :: normalizeBreaks rest
  | c :: rest => c :: normalizeBreaks rest

/-- The text up to the quote that closes it, and what follows the quote. A quote behind a backslash
closes a text only if no other quote does; then the last one closes it. -/
def takeQuoted (quote : CodePoint) : Text → Option (Text × Text)
  | [] => none
  | .scalar '\\' :: c :: rest =>
    if c = quote then
      match takeQuoted quote rest with
      | some (held, after) => some (.scalar '\\' :: quote :: held, after)
      | none => some ([.scalar '\\'], rest)
    else (takeQuoted quote (c :: rest)).map fun (held, after) => (.scalar '\\' :: held, after)
  | c :: rest =>
    if c = quote then some ([], rest)
    else (takeQuoted quote rest).map fun (held, after) => (c :: held, after)

/-- What a backslash and another character denote between single quotes. -/
def singleEscapes : List (CodePoint × CodePoint) :=
  [(.scalar '\\', .scalar '\\'), (.scalar '\'', .scalar '\'')]

/-- What a backslash and another character denote between double quotes. -/
def doubleEscapes : List (CodePoint × CodePoint) :=
  singleEscapes ++ [(.scalar '"', .scalar '"'), (.scalar 'a', .scalar '\x07'),
    (.scalar 'b', .scalar '\x08'), (.scalar 'f', .scalar '\x0c'), (.scalar 'n', .scalar '\n'),
    (.scalar 'r', .scalar '\r'), (.scalar 't', .scalar '\t'), (.scalar 'v', .scalar '\x0b')]

/-- The text in which the escapes of a table are replaced; other backslashes stay. -/
def unescape (escapes : List (CodePoint × CodePoint)) : Text → Text
  | [] => []
  | .scalar '\\' :: c :: rest =>
    match escapes.lookup c with
    | some d => d :: unescape escapes rest
    | none => .scalar '\\' :: unescape escapes (c :: rest)
  | c :: rest => c :: unescape escapes rest

/-- The text in front of the first white space that leads up to a `#`. -/
def beforeComment : Text → Text
  | [] => []
  | c :: rest =>
    if isBlank c && (rest.dropWhile isBlank).head? == some (.scalar '#') then []
    else c :: beforeComment rest

/-- The rest of a line and what follows it, the line feed included. -/
def takeLine (t : Text) : Text × Text := t.span fun c => !isLineFeed c

/-- A value and what follows it, or nothing if a quote is not closed. -/
def takeValue : Text → Option (Text × Text)
  | [] => some ([], [])
  | c :: rest =>
    if c = .scalar '\'' then
      (takeQuoted c rest).map fun (held, after) => (unescape singleEscapes held, after)
    else if c = .scalar '"' then
      (takeQuoted c rest).map fun (held, after) => (unescape doubleEscapes held, after)
    else
      let (line, after) := takeLine (c :: rest)
      some (Text.dropEndWhile isBlank (beforeComment line), after)

/-- What a statement says: nothing, a name alone, or a name and its value. -/
structure Statement where
  name : Option Text := none
  value : Option Text := none

/-- The text without the word `export` at its head and the white space behind it. -/
def dropExport (t : Text) : Text :=
  let word : Text := "export"
  if word.isPrefixOf t then
    let rest := t.drop word.length
    let after := rest.dropWhile isInlineBlank
    if after.length < rest.length then after else t
  else t

def isNamePoint (c : CodePoint) : Bool :=
  !(c == .scalar '=' || c == .scalar '#' || isBlank c)

/-- The name at the head of a text and what follows it. In front of a comment there is no name;
there is no answer if there should be a name and is none. -/
def takeName (t : Text) : Option (Option Text × Text) :=
  match t with
  | .scalar '#' :: _ => some (none, t)
  | .scalar '\'' :: rest =>
    match Text.cut? (.scalar '\'') rest with
    | some (c :: name, after) => some (some (c :: name), after)
    | _ => none
  | _ =>
    match t.span isNamePoint with
    | ([], _) => none
    | (name, after) => some (some name, after)

/-- What follows the end of a line, if at most a comment stands in front of it; else the place at
which the line goes on. -/
def endLine (t : Text) : Except Text Text :=
  let rest := t.dropWhile isInlineBlank
  let rest := match rest with
    | .scalar '#' :: _ => (takeLine rest).2
    | _ => rest
  match rest with
  | [] => .ok []
  | c :: after => if isLineFeed c then .ok after else .error rest

/-- The statement at the head of a text and what follows it, or the place at which it ceases to
make sense. -/
def takeStatement (t : Text) : Except Text (Statement × Text) :=
  match takeName (dropExport t) with
  | none => .error (dropExport t)
  | some (name, rest) =>
    match rest.dropWhile isInlineBlank with
    | .scalar '=' :: rest =>
      let rest := rest.dropWhile isInlineBlank
      match takeValue rest with
      | none => .error rest
      | some (value, rest) => (endLine rest).map fun after => (⟨name, some value⟩, after)
    | rest => (endLine rest).map fun after => (⟨name, none⟩, after)

/-- What follows the line that a text begins in. -/
def skipLine (t : Text) : Text := (takeLine t).2.drop 1

/-- The statements of a text, in order. Every statement uses up some of the text, and so does a
line that is passed over. -/
def statements (t : Text) : List Statement :=
  let start := t.dropWhile isBlank
  if start.isEmpty then []
  else
    let (here, rest) := match takeStatement start with
      | .ok (s, rest) => ([s], rest)
      | .error place => ([], skipLine place)
    if _h : rest.length < t.length then here ++ statements rest else here
termination_by t.length

/-- The assignments of a text, in order; a name that stands alone has no value. -/
def assignments (t : Text) : List (Text × Option Text) :=
  (statements t).filterMap fun s => s.name.map fun name => (name, s.value)

/-- The reference at the head of a text, behind its `$`: the name, the value by default and what
follows. -/
def takeReference : Text → Option (Text × Text × Text)
  | .scalar '\x7b' :: rest =>
    match rest.span fun c => !(c == .scalar '\x7d' || c == .scalar ':') with
    | (name, .scalar '\x7d' :: after) => some (name, [], after)
    | (name, .scalar ':' :: .scalar '-' :: after) =>
      (Text.cut? (.scalar '\x7d') after).map fun (default, after) => (name, default, after)
    | _ => none
  | _ => none

/-- A value with its references replaced. -/
def expand (value : Text → Option Text) (t : Text) : Text :=
  match t with
  | [] => []
  | c :: rest =>
    match (if c = .scalar '$' then takeReference rest else none) with
    | some (name, default, after) =>
      if _h : after.length < rest.length then
        (value name).getD default ++ expand value after
      else c :: expand value rest
    | none => c :: expand value rest
termination_by t.length
decreasing_by all_goals simp only [List.length_cons]; omega

/-- The value that a name stands for behind the given assignments: the one assigned, the empty text
if the name stood alone, or else that of the environment. -/
def valueOf (environment : Entries Text) (assigned : Entries (Option Text)) (name : Text) :
    Option Text :=
  match assigned.get? name with
  | some value => some (value.getD [])
  | none => environment.get? name

/-- The variables of a file in an environment. A name that stands alone has no value. -/
def read (environment : Entries Text) (file : Text) : Entries (Option Text) :=
  (assignments (normalizeBreaks file)).foldl
    (fun assigned (name, value) =>
      assigned.put name (value.map (expand (valueOf environment assigned)))) []

end Bearer.Variables
