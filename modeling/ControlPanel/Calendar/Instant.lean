import ControlPanel.Calendar.WallTime

/-!
# Instants and clock times

Records carry instants: a wall-clock time with its distance from universal time. A clock may also
give a wall-clock time alone; kept in a record, it counts as universal time.
-/
namespace ControlPanel

/-- The microseconds that a wall clock is ahead of universal time, less than a day either way. -/
structure Offset where
  micros : Int
  inRange : -86400000000 < micros ∧ micros < 86400000000
  deriving DecidableEq, Repr

namespace Offset

def utc : Offset := ⟨0, by decide⟩

def of? (micros : Int) : Option Offset :=
  if h : -86400000000 < micros ∧ micros < 86400000000 then some ⟨micros, h⟩ else none

def ofSeconds? (seconds : Int) : Option Offset :=
  of? (seconds * 1000000)

def sign (negative : Bool) : Char := if negative then '-' else '+'

/-- `±HH:MM`, with `:SS` if that is not all, and a fraction of the second if there is one. -/
def digits (o : Offset) : List Char :=
  let time := TimeOfDay.ofMicros o.micros.natAbs
  sign (o.micros < 0) :: (Text.decimalDigits 2 time.hour ++ ':' :: Text.decimalDigits 2 time.minute ++
    if time.second = 0 ∧ time.micro = 0 then []
    else ':' :: Text.decimalDigits 2 time.second ++ TimeOfDay.fractionDigits time.micro)

def roundedSeconds (o : Offset) : Nat :=
  (o.micros.natAbs + 500000) / 1000000

/-- The form in records: `Z`, or the sign with the full hours and minutes. -/
def recordDigits (o : Offset) : List Char :=
  if o.roundedSeconds = 0 then ['Z']
  else
    let minutes := o.roundedSeconds / 60
    sign (o.micros < 0) :: (Text.decimalDigits 2 (minutes / 60) ++
      ':' :: Text.decimalDigits 2 (minutes % 60))

def zoneName (o : Offset) : List Char :=
  if o.micros = 0 then "UTC".toList else "UTC".toList ++ o.digits

end Offset

structure Instant where
  wall : WallTime
  offset : Offset
  deriving DecidableEq, Repr

namespace Instant

def recordText (i : Instant) : String :=
  String.ofList (i.wall.digits ++ i.offset.recordDigits)

def ofUtc (wall : WallTime) : Instant := ⟨wall, .utc⟩

end Instant

structure ClockTime where
  wall : WallTime
  offset? : Option Offset
  deriving DecidableEq, Repr

namespace ClockTime

def instant (t : ClockTime) : Instant :=
  ⟨t.wall, t.offset?.getD .utc⟩

def ofInstant (i : Instant) : ClockTime :=
  ⟨i.wall, some i.offset⟩

def recordText (t : ClockTime) : String :=
  String.ofList (t.wall.digits ++ (t.offset?.map Offset.recordDigits).getD [])

def text (t : ClockTime) : String :=
  String.ofList (t.wall.digits ++ (t.offset?.map Offset.digits).getD [])

/-- The form in mails: date, time and zone name, the year without leading zeros. -/
def mailText (t : ClockTime) : String :=
  let d := t.wall.date
  String.ofList (Nat.toDigits 10 d.year ++ '-' :: Text.decimalDigits 2 d.month ++
    '-' :: Text.decimalDigits 2 d.day ++ ' ' :: t.wall.time.clockDigits ++
    (t.offset?.map fun o => ' ' :: o.zoneName).getD [])

def advance? (t : ClockTime) (micros : Int) : Option ClockTime :=
  (t.wall.advance? micros).map fun wall => { t with wall := wall }

end ClockTime

end ControlPanel
