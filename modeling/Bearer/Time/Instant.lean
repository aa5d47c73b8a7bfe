/-! Durations and instants count whole microseconds and exist within bounds: a duration covers at most 999999999 days
in either direction, an instant lies in the years 1 to 9999. -/

namespace Bearer

/-- A span of time, in microseconds. -/
structure Duration where
  micros : Int
  least_le : -86399999913600000000 ≤ micros
  le_greatest : micros ≤ 86399999999999999999
  deriving DecidableEq

namespace Duration

/-- The duration of a number of microseconds, if there is one. -/
def ofMicros? (micros : Int) : Option Duration :=
  if h : -86399999913600000000 ≤ micros ∧ micros ≤ 86399999999999999999 then
    some ⟨micros, h.1, h.2⟩
  else none

/-- The duration of a number of seconds, if there is one. -/
def ofSeconds? (seconds : Int) : Option Duration := ofMicros? (seconds * 1000000)

/-- One minute. -/
def minute : Duration := ⟨60000000, by decide, by decide⟩

theorem ofMicros?_eq_some {micros : Int} {d : Duration} :
    ofMicros? micros = some d ↔ d.micros = micros := by
  obtain ⟨m, hl, hg⟩ := d
  simp only [ofMicros?]
  split
  · simp [eq_comm]
  · rename_i h
    constructor
    · simp
    · rintro rfl
      exact absurd ⟨hl, hg⟩ h

/-- The most seconds that a duration covers. -/
def mostSeconds : Int := 86399999999999

theorem ofSeconds?_eq_none {seconds : Int} (hNonneg : 0 ≤ seconds) :
    ofSeconds? seconds = none ↔ mostSeconds < seconds := by
  simp only [ofSeconds?, ofMicros?, dite_eq_right_iff, reduceCtorEq, imp_false,
    mostSeconds]
  omega

end Duration

/-- A point in time, in microseconds from 1970-01-01T00:00:00Z. -/
structure Instant where
  micros : Int
  least_le : -62135596800000000 ≤ micros
  le_greatest : micros ≤ 253402300799999999
  deriving DecidableEq

namespace Instant

/-- The instant at a number of microseconds, if there is one. -/
def ofMicros? (micros : Int) : Option Instant :=
  if h : -62135596800000000 ≤ micros ∧ micros ≤ 253402300799999999 then some ⟨micros, h.1, h.2⟩
  else none

/-- The beginning of 1970. -/
def epoch : Instant := ⟨0, by decide, by decide⟩

/-- The instant a duration later, if there is one. -/
def add? (t : Instant) (d : Duration) : Option Instant := ofMicros? (t.micros + d.micros)

/-- The instant a duration earlier, if there is one. -/
def sub? (t : Instant) (d : Duration) : Option Instant := ofMicros? (t.micros - d.micros)

theorem ofMicros?_eq_some {micros : Int} {t : Instant} :
    ofMicros? micros = some t ↔ t.micros = micros := by
  obtain ⟨m, hl, hg⟩ := t
  simp only [ofMicros?]
  split
  · simp [eq_comm]
  · rename_i h
    constructor
    · simp
    · rintro rfl
      exact absurd ⟨hl, hg⟩ h

theorem ofMicros?_eq_none {micros : Int} :
    ofMicros? micros = none ↔ micros < -62135596800000000 ∨ 253402300799999999 < micros := by
  simp only [ofMicros?]
  split
  · simp; omega
  · simp; omega

end Instant

end Bearer
