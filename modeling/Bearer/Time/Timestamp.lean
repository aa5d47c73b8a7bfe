import Bearer.Time.Calendar

/-! A timestamp is what a clock shows: a date with a time of day, and how far the clock is ahead of one of UTC if that
is known. An instant is the timestamp that a clock of UTC shows at it. -/

namespace Bearer

/-- A time zone, by how many microseconds its clocks are ahead of those of UTC: less than a day in
either direction. -/
structure Zone where
  ahead : Int
  least_lt : -86400000000 < ahead
  lt_greatest : ahead < 86400000000
  /-- How the zone is written where the fields of a timestamp are listed. -/
  quoted : Text
  deriving DecidableEq

namespace Zone

def utc : Zone := ⟨0, by decide, by decide, "datetime.timezone.utc"⟩

def hour (z : Zone) : Nat := z.ahead.natAbs / 3600000000

def minute (z : Zone) : Nat := z.ahead.natAbs / 60000000 % 60

def second (z : Zone) : Nat := z.ahead.natAbs / 1000000 % 60

def micro (z : Zone) : Nat := z.ahead.natAbs % 1000000

/-- The seconds with their fraction, left out when they are zero; a fraction that is zero is left out
as well. -/
def writtenSeconds (z : Zone) : Text :=
  if z.second = 0 ∧ z.micro = 0 then []
  else .scalar ':' :: Decimal.ofNatPadded 2 z.second
    ++ (if z.micro = 0 then [] else .scalar '.' :: Decimal.ofNatPadded 6 z.micro)

/-- The offset behind a time of day, with its sign. -/
def written (z : Zone) : Text :=
  [.scalar (if z.ahead < 0 then '-' else '+')] ++ Decimal.ofNatPadded 2 z.hour ++ (":" : Text)
    ++ Decimal.ofNatPadded 2 z.minute ++ z.writtenSeconds

theorem isScalar_written (z : Zone) : z.written.IsScalar := by
  have hSign : Text.IsScalar [.scalar (if z.ahead < 0 then '-' else '+')] := Text.isScalar_map [_]
  have hSeconds : z.writtenSeconds.IsScalar := by
    unfold writtenSeconds
    split
    · exact Text.isScalar_nil
    · refine Text.isScalar_append.mpr ⟨Text.isScalar_cons.mpr ⟨rfl, Decimal.isScalar_ofNatPadded 2 z.second⟩, ?_⟩
      split
      · exact Text.isScalar_nil
      · exact Text.isScalar_cons.mpr ⟨rfl, Decimal.isScalar_ofNatPadded 6 z.micro⟩
  simp only [written, Text.isScalar_append, Decimal.isScalar_ofNatPadded, Text.isScalar_ofString, hSign, hSeconds,
    and_self]

end Zone

/-- What a clock shows, and its zone if that is known. -/
structure Timestamp where
  /-- The instant at which a clock of UTC shows the same. -/
  shown : Instant
  zone : Option Zone
  deriving DecidableEq

/-- What a clock of UTC shows at an instant. -/
instance : Coe Instant Timestamp := ⟨fun t => ⟨t, some .utc⟩⟩

namespace Timestamp

/-- The written form with a given separator between date and time. -/
def written (separator : Char) (t : Timestamp) : Text :=
  t.shown.face separator ++ ((t.zone.map Zone.written).getD [])

theorem isScalar_written (separator : Char) (t : Timestamp) : (t.written separator).IsScalar := by
  refine Text.isScalar_append.mpr ⟨t.shown.isScalar_face separator, ?_⟩
  cases t.zone with
  | none => exact Text.isScalar_nil
  | some z => exact z.isScalar_written

/-- The ISO form, with a `T` between date and time. -/
def iso (t : Timestamp) : Text := t.written 'T'

/-- The form for readers, with a blank between date and time. -/
def display (t : Timestamp) : Text := t.written ' '

/-- The form that lists the fields by position, and the zone by name. -/
def fields (t : Timestamp) : Text :=
  ("datetime.datetime(" : Text) ++ t.shown.positions
    ++ ((t.zone.map fun z => (", tzinfo=" : Text) ++ z.quoted).getD []) ++ (")" : Text)

end Timestamp

end Bearer
