import ControlPanel.Calendar.Reading
import ControlPanel.Text.Quoted

/-!
# ISO 8601 times

A clock time as hosts write it: a date by its month or its week, any one character, a time and a
zone. Date, time and zone may each stand with marks between their numbers or without. A time that is followed
by a zone may end with text that means nothing.
-/
namespace ControlPanel

namespace TimeOfDay

def isLeft (cs : List Char) : Bool :=
  cs.head?.any (· ≠ Char.ofNat 0)

/-- The microseconds of a fraction of up to six digits, and whether anything is left after the digits that follow
the sixth. -/
def isoFraction? (cs : List Char) : Option (Nat × Bool) :=
  let digits := cs.take 6
  if digits.all Char.isDigit then
    some (fractionMicros digits, isLeft (takeDigits (cs.drop 6)).2)
  else none

/-- Up to so many numbers of two digits, the microseconds of the fraction after them, and whether anything is left.
If a colon follows the first number, all numbers have one between them. A point or comma begins the fraction after
any number, and nothing needs to stand before it after the last. -/
def isoNumbers? (marks? : Option Bool) : Nat → List Char → Option (List Nat × Nat × Bool)
  | 0, cs => (isoFraction? cs).map fun (micro, left) => ([], micro, left)
  | count + 1, cs => do
    let (n, rest) ← takeFixed? 2 cs
    if rest.length = 0 ∨ (rest.length = 1 ∧ rest.all fun c => c.toNat < 128) then
      return ([n], 0, isLeft rest)
    let c := rest.head?
    let marks := marks?.getD (c = some ':')
    if marks ∧ c = some ':' then
      let (more, ending) ← isoNumbers? (some true) count (rest.drop 1)
      return (n :: more, ending)
    else if c = some '.' ∨ c = some ',' then
      let ending ← isoFraction? (rest.drop 1)
      return ([n], ending)
    else if marks then none
    else
      let (more, ending) ← isoNumbers? (some false) count rest
      return (n :: more, ending)

def ofIso? (cs : List Char) : Option (TimeOfDay × Bool) := do
  let (numbers, micro, left) ← isoNumbers? none 3 cs
  return (⟨numbers.getD 0 0, numbers.getD 1 0, numbers.getD 2 0, micro⟩, left)

end TimeOfDay

/-- The microseconds of a zone: none, `Z`, or a signed distance in the form of a time. Less than a second is no
distance. -/
def Offset.isoMicros? : List Char → Option (Option Int)
  | [] => some none
  | 'Z' :: rest => if TimeOfDay.isLeft rest then none else some (some 0)
  | c :: rest => do
    let (time, left) ← TimeOfDay.ofIso? rest
    let size : Int := if time.toMicros < 1000000 then 0 else time.toMicros
    if left then none else return some (if c = '-' then -size else size)

namespace Date

def ofWeek? (year week day : Nat) : Option Date :=
  let first := (Date.mk year 1 1).toDays
  let weekday := first % 7
  let isLong := weekday = 3 ∨ (weekday = 2 ∧ isLeapYear year)
  if 1 ≤ week ∧ (week ≤ 52 ∨ (week = 53 ∧ isLong)) ∧ 1 ≤ day ∧ day ≤ 7 then
    let monday := if weekday ≤ 3 then first - weekday else first + 7 - weekday
    some (if year = 0 then ⟨1, 0, 0⟩ else ofDays (monday + 7 * (week - 1) + (day - 1)))
  else none

/-- Whether the number of a week is followed by that of a day, not by the character before a time. Without marks the
digits tell: a time has an even number of them, and the character before it may be one. -/
def hasWeekday (marks : Bool) (cs : List Char) : Bool :=
  if marks then
    match cs with
    | '-' :: d :: rest => d.isDigit && !rest.head?.any Char.isDigit
    | _ => false
  else
    let digits := (takeDigits cs).1.length
    digits = 1 || (digits ≠ 0 && digits % 2 = 0)

def takeIso? (cs : List Char) : Option (Date × List Char) := do
  let (year, rest) ← takeFixed? 4 cs
  let marks := rest.head? = some '-'
  let part (width : Nat) (cs : List Char) : Option (Nat × List Char) := do
    takeFixed? width (← if marks then takeMark? ['-'] cs else some cs)
  match if marks then rest.drop 1 else rest with
  | 'W' :: rest =>
    let (week, rest) ← takeFixed? 2 rest
    if hasWeekday marks rest then
      let (day, rest) ← part 1 rest
      return (← ofWeek? year week day, rest)
    else return (← ofWeek? year week 1, rest)
  | _ =>
    let (month, rest) ← part 2 rest
    let (day, rest) ← part 2 rest
    return (⟨year, month, day⟩, rest)

end Date

namespace ClockTime

inductive IsoFault where
  | malformed (text : String)
  | farZone (micros : Int)
  | outOfRange (date : Date) (time : TimeOfDay)
  deriving DecidableEq, Repr

def rangeMessage (d : Date) (t : TimeOfDay) : String :=
  if d.year = 0 ∨ 9999 < d.year then "year " ++ toString d.year ++ " is out of range"
  else if d.month = 0 ∨ 12 < d.month then "month must be in 1..12"
  else if d.day = 0 ∨ Date.monthLength d.year d.month < d.day then "day is out of range for month"
  else if 24 ≤ t.hour then "hour must be in 0..23"
  else if 60 ≤ t.minute then "minute must be in 0..59"
  else "second must be in 0..59"

def distanceText (micros : Int) : String :=
  let part (name : String) (n : Int) : List String := if n = 0 then [] else [name ++ "=" ++ toString n]
  let parts := part "days" (micros / 86400000000) ++
    part "seconds" (micros / 1000000 % 86400) ++ part "microseconds" (micros % 1000000)
  "datetime.timedelta(" ++ ", ".intercalate parts ++ ")"

def IsoFault.message : IsoFault → String
  | .malformed text => "Invalid isoformat string: " ++ Text.quote text
  | .farZone micros => "offset must be a timedelta strictly between -timedelta(hours=24) and " ++
      "timedelta(hours=24), not " ++ distanceText micros ++ "."
  | .outOfRange date time => rangeMessage date time

def isoParts? (cs : List Char) : Option (Date × TimeOfDay × Option Int) := do
  let (date, rest) ← Date.takeIso? cs
  if rest.isEmpty then return (date, ⟨0, 0, 0, 0⟩, none)
  let isZone (c : Char) : Bool := c = '+' || c = '-' || c = 'Z'
  let rest := rest.drop 1
  let (time, left) ← TimeOfDay.ofIso? (rest.takeWhile (!isZone ·))
  let offset? ← Offset.isoMicros? (rest.dropWhile (!isZone ·))
  if left ∧ offset?.isNone then none else return (date, time, offset?)

def isoOffset : Option Int → Except IsoFault (Option Offset)
  | none => .ok none
  | some micros =>
    match Offset.of? micros with
    | some o => .ok (some o)
    | none => .error (.farZone micros)

/-- The clock time that a text stands for. A zone that is too far away is found before a date that does not exist. -/
def ofIso (s : String) : Except IsoFault ClockTime :=
  match isoParts? s.toList with
  | none => .error (.malformed s)
  | some (date, time, micros?) => do
    let offset? ← isoOffset micros?
    match WallTime.of? date time with
    | some wall => return ⟨wall, offset?⟩
    | none => throw (.outOfRange date time)

end ClockTime

end ControlPanel
