import ControlPanel.Calendar.Date
import ControlPanel.Text.Digit

/-!
# Wall-clock times

A date and a time of day to the microsecond, without a zone. The text form gives the fraction of
the second only when there is one, always with six digits.
-/
namespace ControlPanel

def microsPerDay : Nat := 86400000000

/-- Microseconds since the start of year 1, up to the end of year 9999. -/
structure WallTime where
  micros : Nat
  inRange : micros < 3652059 * microsPerDay
  deriving DecidableEq, Repr

structure TimeOfDay where
  hour : Nat
  minute : Nat
  second : Nat
  micro : Nat
  deriving DecidableEq, Repr

namespace TimeOfDay

def Valid (t : TimeOfDay) : Prop :=
  t.hour < 24 ∧ t.minute < 60 ∧ t.second < 60 ∧ t.micro < 1000000

instance (t : TimeOfDay) : Decidable t.Valid := inferInstanceAs (Decidable (_ ∧ _))

def toMicros (t : TimeOfDay) : Nat :=
  ((t.hour * 60 + t.minute) * 60 + t.second) * 1000000 + t.micro

def ofMicros (n : Nat) : TimeOfDay :=
  ⟨n / 3600000000, n / 60000000 % 60, n / 1000000 % 60, n % 1000000⟩

def clockDigits (t : TimeOfDay) : List Char :=
  Text.decimalDigits 2 t.hour ++ ':' :: Text.decimalDigits 2 t.minute ++
    ':' :: Text.decimalDigits 2 t.second

/-- `.ffffff`, or nothing for a full second. -/
def fractionDigits (micro : Nat) : List Char :=
  if micro = 0 then [] else '.' :: Text.decimalDigits 6 micro

end TimeOfDay

namespace WallTime

def date (w : WallTime) : Date :=
  Date.ofDays (w.micros / microsPerDay)

def time (w : WallTime) : TimeOfDay :=
  TimeOfDay.ofMicros (w.micros % microsPerDay)

def ofMicros? (n : Int) : Option WallTime :=
  if h : n.toNat < 3652059 * microsPerDay then
    if 0 ≤ n then some ⟨n.toNat, h⟩ else none
  else none

def of? (d : Date) (t : TimeOfDay) : Option WallTime :=
  if d.Valid ∧ t.Valid then ofMicros? ((d.toDays * microsPerDay + t.toMicros : Nat) : Int) else none

def epochMicros : Nat := 719162 * microsPerDay

def advance? (w : WallTime) (n : Int) : Option WallTime :=
  ofMicros? (w.micros + n)

def dateDigits (d : Date) : List Char :=
  Text.decimalDigits 4 d.year ++ '-' :: Text.decimalDigits 2 d.month ++
    '-' :: Text.decimalDigits 2 d.day

def digits (w : WallTime) : List Char :=
  dateDigits w.date ++ 'T' :: w.time.clockDigits ++ TimeOfDay.fractionDigits w.time.micro

end WallTime

end ControlPanel
