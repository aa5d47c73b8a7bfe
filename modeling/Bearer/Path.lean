import Bearer.Text.CodePoint

/-! A root is normalized to `/` or `/a/b/`: the segments that are not empty, each followed by a slash. A path is
placed under a root by joining the two and dropping the slashes at the end. -/

namespace Bearer.Path

/-- The slash. -/
def slash : CodePoint := .scalar '/'

def isSlash (c : CodePoint) : Bool := c == slash

/-- The segments of a text between slashes that are not empty. -/
def segments (t : Text) : List Text := (Text.splitOn slash t).filter (· ≠ [])

/-- The normal form of a root: its segments between single slashes, with one at each end. -/
def normalize (root : Text) : Text :=
  match segments root with
  | [] => [slash]
  | parts => [slash] ++ Text.join [slash] parts ++ [slash]

/-- The path that addresses `path` below `root`. -/
def under (root path : Text) : Text :=
  Text.dropEndWhile isSlash (root ++ path.dropWhile isSlash)

end Bearer.Path
