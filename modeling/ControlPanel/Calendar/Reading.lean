import ControlPanel.Calendar.Instant
import ControlPanel.Number.Reading

/-!
# Reading times

Three forms are read: a calendar text with a date and usually a time and a zone, a decimal text
that counts seconds or, when large, milliseconds, and a number that does the same with another
limit between the two.
-/
namespace ControlPanel

def takeFixed? (width : Nat) (cs : List Char) : Option (Nat × List Char) :=
  let digits := cs.take width
  if digits.length = width ∧ digits.all Char.isDigit then some (digitsValue digits, cs.drop width)
  else none

def takeMark? (marks : List Char) : List Char → Option (List Char)
  | c :: rest => if marks.contains c then some rest else none
  | [] => none

namespace Date

def take? (cs : List Char) : Option (Date × List Char) := do
  let (year, rest) ← takeFixed? 4 cs
  let rest ← takeMark? ['-'] rest
  let (month, rest) ← takeFixed? 2 rest
  let rest ← takeMark? ['-'] rest
  let (day, rest) ← takeFixed? 2 rest
  return (⟨year, month, day⟩, rest)

end Date

namespace TimeOfDay

/-- The microseconds of a decimal fraction; digits after the sixth are cut off. -/
def fractionMicros (digits : List Char) : Nat :=
  digitsValue ((digits ++ List.replicate 6 '0').take 6)

def takeFraction? (cs : List Char) : Option (Nat × List Char) :=
  match takeMark? ['.', ','] cs with
  | none => some (0, cs)
  | some rest =>
    let (digits, rest) := takeDigits rest
    if digits.isEmpty then none else some (fractionMicros digits, rest)

def takeSeconds? (cs : List Char) : Option (Nat × Nat × List Char) :=
  match takeMark? [':'] cs with
  | none => some (0, 0, cs)
  | some rest => do
    let (second, rest) ← takeFixed? 2 rest
    let (micro, rest) ← takeFraction? rest
    return (second, micro, rest)

def take? (cs : List Char) : Option (TimeOfDay × List Char) := do
  let (hour, rest) ← takeFixed? 2 cs
  let rest ← takeMark? [':'] rest
  let (minute, rest) ← takeFixed? 2 rest
  let (second, micro, rest) ← takeSeconds? rest
  return (⟨hour, minute, second, micro⟩, rest)

end TimeOfDay

namespace Offset

def minusMarks : List Char := ['-', Char.ofNat 0x2212]

def readClock? (negative : Bool) (cs : List Char) : Option Offset := do
  let (hours, rest) ← takeFixed? 2 cs
  let (minutes, rest) ← takeFixed? 2 ((takeMark? [':'] rest).getD rest)
  if rest.isEmpty ∧ minutes < 60 then
    let seconds := 60 * (60 * hours + minutes)
    ofSeconds? (if negative then -(seconds : Int) else seconds)
  else none

/-- The zone at the end of a text: none, `Z`, or a signed distance. -/
def readZone? : List Char → Option (Option Offset)
  | [] => some none
  | c :: rest =>
    if (c = 'Z' ∨ c = 'z') ∧ rest = [] then some (some utc)
    else if c = '+' then (readClock? false rest).map some
    else if minusMarks.contains c then (readClock? true rest).map some
    else none

end Offset

namespace ClockTime

def readCalendar? (cs : List Char) : Option ClockTime := do
  let (date, rest) ← Date.take? cs
  if rest.isEmpty then
    return ⟨← WallTime.of? date ⟨0, 0, 0, 0⟩, none⟩
  else
    let rest ← takeMark? ['T', 't', ' ', '_'] rest
    let (time, rest) ← TimeOfDay.take? rest
    let offset? ← Offset.readZone? rest
    return ⟨← WallTime.of? date time, offset?⟩

/-- Beyond this many units a count is one of milliseconds. -/
def secondsLimit : Nat := 20000000000

def unitMicros (isBeyondLimit : Bool) : Nat :=
  if isBeyondLimit then 1000 else 1000000

def ofMicros? (micros : Int) : Option ClockTime :=
  (WallTime.ofMicros? (WallTime.epochMicros + micros)).map fun wall => ⟨wall, some .utc⟩

def ofInt? (count : Int) : Option ClockTime :=
  ofMicros? (count * unitMicros (secondsLimit < count.natAbs))

/-- A double as seconds or milliseconds: its floor, and the rest in microseconds with halves going up. -/
def ofReal? (count : Binary64) : Option ClockTime :=
  count.quanta?.bind fun quanta =>
    let unit := unitMicros (secondsLimit * Binary64.one < quanta.natAbs)
    let rest := Binary64.ofQuotient (quanta % (Binary64.one : Nat)) Binary64.one
    (rest.mulNat unit).quanta?.bind fun micros =>
      ofMicros? (quanta / (Binary64.one : Nat) * unit +
        (2 * micros + Binary64.one) / (2 * (Binary64.one : Nat)))

/-- A decimal text as a count. One with a point is read as a double, and only that one has an exponent. -/
def readCount? (cs : List Char) : Option ClockTime :=
  let (negative, unsigned) := takeSign cs
  let (whole, rest) := takeDigits unsigned
  match rest with
  | [] =>
    if whole.isEmpty then none
    else ofInt? (if negative then -(digitsValue whole : Int) else digitsValue whole)
  | '.' :: _ => (Binary64.readDecimal? negative unsigned).bind ofReal?
  | _ => none

def read? (s : String) : Option ClockTime :=
  match readCalendar? s.toList with
  | some t => some t
  | none => readCount? s.toList

end ClockTime

inductive InstantFault where
  | yearOutOfRange (year : Int)
  | notANumber
  | beyondClock
  | beyondYears
  | beyondReals
  deriving DecidableEq, Repr

namespace InstantFault

def message : InstantFault → String
  | .yearOutOfRange year => "year " ++ toString year ++ " is out of range"
  | .notANumber => "Invalid value NaN (not a number)"
  | .beyondClock => "timestamp out of range for platform time_t"
  | .beyondYears => "[Errno 75] Value too large for defined data type"
  | .beyondReals => "int too large to convert to float"

/-- Whether a record field with this fault is merely invalid. Other faults end the reading of all fields. -/
def isInvalid : InstantFault → Bool
  | .yearOutOfRange _ => true
  | .notANumber => true
  | _ => false

end InstantFault

namespace Instant

def millisLimit : Nat := 1000000000000

/-- Splits a finite double into whole seconds and microseconds of a second, rounded to the even one. -/
def splitSeconds (negative : Bool) (size : Magnitude) : Int × Int :=
  let whole : Int := size.quanta / Binary64.one
  let rest := Binary64.ofRatio negative (size.quanta % Binary64.one) Binary64.one
  let seconds := if negative then -whole else whole
  let micros := ((rest.mulNat 1000000).roundInt?).getD 0
  if 1000000 ≤ micros then (seconds + 1, micros - 1000000)
  else if micros < 0 then (seconds - 1, micros + 1000000)
  else (seconds, micros)

def clockLimit : Int := 9223372036854775808

def yearLimit : Int := 2147483648

def ofSeconds (seconds micros : Int) : Except InstantFault Instant :=
  if seconds < -clockLimit ∨ clockLimit < seconds then .error .beyondClock
  else
    let year := Date.yearOf (719162 + seconds / 86400)
    if year - 1900 < -yearLimit ∨ yearLimit ≤ year - 1900 then .error .beyondYears
    else
      match WallTime.ofMicros? (WallTime.epochMicros + seconds * 1000000 + micros) with
      | some wall => .ok (ofUtc wall)
      | none => .error (.yearOutOfRange (year.bmod 4294967296))

def toSeconds (x : Binary64) : Binary64 :=
  if (Binary64.ofNat millisLimit).le x then x.divNat 1000 else x

def ofRealSeconds : Binary64 → Except InstantFault Instant
  | .nan => .error .notANumber
  | .infinite _ => .error .beyondClock
  | .finite negative size =>
    let split := splitSeconds negative size
    ofSeconds split.1 split.2

/-- The universal time at a number of seconds from 1970, or of milliseconds from the limit on. -/
def ofReal (x : Binary64) : Except InstantFault Instant :=
  ofRealSeconds (toSeconds x)

def ofReal? : Option Binary64 → Except InstantFault Instant
  | some x => ofReal x
  | none => .error .beyondReals

def ofInt (n : Int) : Except InstantFault Instant :=
  ofReal? (Binary64.ofInt? n)

def read? (s : String) : Option Instant :=
  (ClockTime.read? s).map ClockTime.instant

end Instant

end ControlPanel
