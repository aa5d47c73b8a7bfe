import Bearer.Text.CodePoint

/-! A masked secret shows its first code points and a star for each of the others, a short one stars alone. -/

namespace Bearer.Secret

def stars (n : Nat) : Text := List.replicate n (.scalar '*')

/-- The code points of a text in front of place `n`, which counts from the end if negative. -/
def front (n : Int) (t : Text) : Text :=
  match n with
  | .ofNat n => t.take n
  | .negSucc n => t.take (t.length - (n + 1))

/-- The masked form of a secret with `visible` code points shown. -/
def mask (visible : Int) (secret : Text) : Text :=
  if (secret.length : Int) ≤ visible then stars secret.length
  else front visible secret ++ stars ((secret.length : Int) - visible).toNat

/-- The number of code points that the log shows of a token. -/
def logVisible : Int := 6

/-- The masked form of a secret that may be absent. -/
def mask? (visible : Int) : Option Text → Text
  | none => "<None>"
  | some secret => mask visible secret

end Bearer.Secret
