/-! A computation of several steps gives a result if each of its steps does, and else the error of the first that does
not. -/

namespace Bearer

variable {ε α β γ : Type}

/-- A computation in two steps succeeds if both do. -/
theorem bind_eq_ok {first : Except ε α} {next : α → Except ε β} {b : β} :
    (first >>= next) = .ok b ↔ ∃ a, first = .ok a ∧ next a = .ok b := by
  cases first with
  | error e =>
      constructor
      · intro h
        contradiction
      · rintro ⟨a, hFirst, -⟩
        contradiction
  | ok a =>
      constructor
      · intro h
        exact ⟨a, rfl, h⟩
      · rintro ⟨a', hFirst, hNext⟩
        cases hFirst
        exact hNext

/-- A computation in two steps fails if one of them does. -/
theorem bind_eq_error {first : Except ε α} {next : α → Except ε β} {e : ε} :
    (first >>= next) = .error e ↔ first = .error e ∨ ∃ a, first = .ok a ∧ next a = .error e := by
  cases first with
  | error e' => simp [bind, Except.bind]
  | ok a => simp [bind, Except.bind]

/-- The first part of a result, with a change made to it. -/
theorem map_eq_ok {first : Except ε (α × γ)} {f : α → β} {b : β} {c : γ} :
    (do let (a, c) ← first; return (f a, c)) = .ok (b, c) ↔ ∃ a, first = .ok (a, c) ∧ f a = b := by
  rw [bind_eq_ok]
  constructor
  · rintro ⟨⟨a, c'⟩, hFirst, hNext⟩
    obtain ⟨rfl, rfl⟩ := Prod.mk.inj (Except.ok.inj hNext)
    exact ⟨a, hFirst, rfl⟩
  · rintro ⟨a, hFirst, rfl⟩
    exact ⟨(a, c), hFirst, rfl⟩

theorem map_eq_error {first : Except ε (α × γ)} {f : α → β} {e : ε} :
    (do let (a, c) ← first; return (f a, c)) = .error e ↔ first = .error e := by
  rw [bind_eq_error]
  exact or_iff_left (by rintro ⟨a, -, hNext⟩; contradiction)

/-- An error that is told in other words is no success. -/
theorem mapError_eq_ok {ε' : Type} {f : ε → ε'} {x : Except ε α} {a : α} :
    x.mapError f = .ok a ↔ x = .ok a := by
  cases x with
  | error e => exact iff_of_false (by rintro ⟨⟩) (by rintro ⟨⟩)
  | ok a' => exact ⟨by rintro ⟨⟩; rfl, by rintro ⟨⟩; rfl⟩

theorem eq_ok_of_toOption {x : Except ε α} {a : α} (h : x.toOption = some a) : x = .ok a := by
  cases x with
  | error e => contradiction
  | ok a' => exact congrArg Except.ok (Option.some.inj h)

/-- The error of a computation that fails. -/
def errorOf? : Except ε α → Option ε
  | .error e => some e
  | .ok _ => none

theorem eq_error_of_errorOf? {x : Except ε α} {e : ε} (h : errorOf? x = some e) : x = .error e := by
  cases x with
  | error e' => exact congrArg Except.error (Option.some.inj h)
  | ok a => contradiction

end Bearer
