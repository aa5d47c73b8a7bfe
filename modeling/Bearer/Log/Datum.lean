import Bearer.Json.Printer
import Bearer.Time.Timestamp

/-! The values that a record can carry: those of documents, and timestamps, which documents show in their form for
readers. -/

namespace Bearer.Log

/-- A value that a record carries. -/
inductive Datum where
  | null
  | bool (b : Bool)
  | int (n : Int)
  | float (x : Binary64)
  | text (t : Text)
  | instant (t : Timestamp)
  | list (items : List Datum)
  | mapping (entries : List (Text × Datum))

namespace Datum

instance : Inhabited Datum := ⟨null⟩

mutual

/-- The document value that shows a logged value. -/
def toJson : Datum → Json
  | null => .null
  | bool b => .bool b
  | int n => .int n
  | float x => .float x
  | text t => .string t
  | instant t => .string t.display
  | list items => .array (toJsonItems items)
  | mapping entries => .object (toJsonMembers entries)

def toJsonItems : List Datum → List Json
  | [] => []
  | d :: rest => d.toJson :: toJsonItems rest

def toJsonMembers : List (Text × Datum) → List (Text × Json)
  | [] => []
  | (name, d) :: rest => (name, d.toJson) :: toJsonMembers rest

end

mutual

/-- The value of a document as a logged value. -/
def ofJson : Json → Datum
  | .null => null
  | .bool b => bool b
  | .int n => int n
  | .float x => float x
  | .string t => text t
  | .array items => list (ofJsonItems items)
  | .object members => mapping (ofJsonMembers members)

def ofJsonItems : List Json → List Datum
  | [] => []
  | j :: rest => ofJson j :: ofJsonItems rest

def ofJsonMembers : List (Text × Json) → List (Text × Datum)
  | [] => []
  | (name, j) :: rest => (name, ofJson j) :: ofJsonMembers rest

end

mutual

/-- The form of a value in which texts are quoted. -/
def quoted : Datum → Text
  | null => "None"
  | bool true => "True"
  | bool false => "False"
  | int n => Decimal.ofInt n
  | float x => Decimal.ofFloat Decimal.plain x
  | text t => t.quoted
  | instant t => t.fields
  | list [] => "[]"
  | list (d :: rest) => .scalar '[' :: d.quoted ++ quotedItems rest ++ [.scalar ']']
  | mapping [] => [.scalar '{', .scalar '}']
  | mapping ((name, d) :: rest) =>
    .scalar '{' :: Text.quoted name ++ (": " : Text) ++ d.quoted ++ quotedMembers rest
      ++ [.scalar '}']

def quotedItems : List Datum → Text
  | [] => []
  | d :: rest => (", " : Text) ++ d.quoted ++ quotedItems rest

def quotedMembers : List (Text × Datum) → Text
  | [] => []
  | (name, d) :: rest =>
    (", " : Text) ++ Text.quoted name ++ (": " : Text) ++ d.quoted ++ quotedMembers rest

end

/-- The form of a value for readers: as the quoted one, but a text or timestamp as it is. -/
def shown : Datum → Text
  | text t => t
  | instant t => t.display
  | d => d.quoted

end Datum

end Bearer.Log
