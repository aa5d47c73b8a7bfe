import Bearer.Time.Instant
import Bearer.Decimal.Digits

/-! The date and time of day of an instant in the Gregorian calendar, and its written forms. Years are counted from
March, so that the leap day is the last day of a year. -/

namespace Bearer

/-- A date of the Gregorian calendar. -/
structure Date where
  year : Nat
  month : Nat
  day : Nat
  deriving DecidableEq

namespace Date

/-- The date a number of days after the first of March of the year 0. -/
def ofDays (days : Nat) : Date :=
  let era := days / 146097
  let inEra := days % 146097
  let yearOfEra := (inEra - inEra / 1460 + inEra / 36524 - inEra / 146096) / 365
  let inYear := inEra - (365 * yearOfEra + yearOfEra / 4 - yearOfEra / 100)
  let march := (5 * inYear + 2) / 153
  let day := inYear - (153 * march + 2) / 5 + 1
  if march < 10 then ⟨yearOfEra + era * 400, march + 3, day⟩
  else ⟨yearOfEra + era * 400 + 1, march - 9, day⟩

end Date

namespace Instant

/-- Microseconds in a day. -/
def dayMicros : Int := 86400000000

/-- The date of an instant. -/
def date (t : Instant) : Date := Date.ofDays (t.micros / dayMicros + 719468).toNat

/-- The microseconds of an instant since midnight. -/
def ofDay (t : Instant) : Nat := (t.micros % dayMicros).toNat

def hour (t : Instant) : Nat := t.ofDay / 3600000000

def minute (t : Instant) : Nat := t.ofDay / 60000000 % 60

def second (t : Instant) : Nat := t.ofDay / 1000000 % 60

def micro (t : Instant) : Nat := t.ofDay % 1000000

/-- The date and the time of day with a given separator between them. The fraction is written, with
six digits, unless it is zero. -/
def face (separator : Char) (t : Instant) : Text :=
  let d := t.date
  Decimal.ofNatPadded 4 d.year ++ ("-" : Text) ++ Decimal.ofNatPadded 2 d.month ++ ("-" : Text)
    ++ Decimal.ofNatPadded 2 d.day ++ [.scalar separator] ++ Decimal.ofNatPadded 2 t.hour
    ++ (":" : Text) ++ Decimal.ofNatPadded 2 t.minute ++ (":" : Text)
    ++ Decimal.ofNatPadded 2 t.second
    ++ (if t.micro = 0 then [] else .scalar '.' :: Decimal.ofNatPadded 6 t.micro)

theorem isScalar_face (separator : Char) (t : Instant) : (t.face separator).IsScalar := by
  have hSeparator : Text.IsScalar [.scalar separator] := Text.isScalar_map [separator]
  have hFraction : Text.IsScalar (if t.micro = 0 then [] else .scalar '.' :: Decimal.ofNatPadded 6 t.micro) := by
    split
    · exact Text.isScalar_nil
    · exact Text.isScalar_cons.mpr ⟨rfl, Decimal.isScalar_ofNatPadded 6 t.micro⟩
  simp only [face, Text.isScalar_append, Decimal.isScalar_ofNatPadded, Text.isScalar_ofString, hSeparator,
    hFraction, and_self]

/-- The written form with a given separator between date and time. -/
def written (separator : Char) (t : Instant) : Text := t.face separator ++ ("+00:00" : Text)

/-- The ISO form, with a `T` between date and time. -/
def iso (t : Instant) : Text := t.written 'T'

/-- The form for readers, with a blank between date and time. -/
def display (t : Instant) : Text := t.written ' '

/-- The fields by position, leaving out seconds and microseconds that are zero at the end. -/
def positions (t : Instant) : Text :=
  let d := t.date
  let tail : List Nat :=
    if t.micro ≠ 0 then [t.second, t.micro] else if t.second ≠ 0 then [t.second] else []
  Text.join ", " (([d.year, d.month, d.day, t.hour, t.minute] ++ tail).map Decimal.ofNat)

/-- The form that lists the fields. -/
def fields (t : Instant) : Text :=
  ("datetime.datetime(" : Text) ++ t.positions ++ (", tzinfo=datetime.timezone.utc)" : Text)

end Instant

end Bearer
