/-!
# Dates

The calendar repeats every 400 years. Days are counted from the first day of year 1, which is day
zero; a date stands for its day number, and every day number has one date.
-/
namespace ControlPanel

def isLeapYear (year : Nat) : Bool :=
  year % 4 = 0 && (year % 100 ≠ 0 || year % 400 = 0)

def monthLengths (leap : Bool) : List Nat :=
  [31, if leap then 29 else 28, 31, 30, 31, 30, 31, 31, 30, 31, 30, 31]

def daysBeforeYear (year : Nat) : Nat :=
  let past := year - 1
  365 * past + past / 4 - past / 100 + past / 400

structure Date where
  year : Nat
  month : Nat
  day : Nat
  deriving DecidableEq, Repr

namespace Date

def monthLength (year month : Nat) : Nat :=
  (monthLengths (isLeapYear year)).getD (month - 1) 0

def Valid (d : Date) : Prop :=
  1 ≤ d.year ∧ d.year ≤ 9999 ∧ 1 ≤ d.month ∧ d.month ≤ 12 ∧
    1 ≤ d.day ∧ d.day ≤ monthLength d.year d.month

instance (d : Date) : Decidable d.Valid := inferInstanceAs (Decidable (_ ∧ _))

def toDays (d : Date) : Nat :=
  daysBeforeYear d.year + ((monthLengths (isLeapYear d.year)).take (d.month - 1)).foldl (· + ·) 0 +
    (d.day - 1)

/-- Splits a day of a 400-year cycle into the years before it and the day within its year. -/
def splitCycle (n : Nat) : Nat × Nat :=
  let centuries := min (n / 36524) 3
  let n := n - centuries * 36524
  let fours := n / 1461
  let n := n % 1461
  let years := min (n / 365) 3
  (100 * centuries + 4 * fours + years, n - years * 365)

/-- Splits a day of a year whose months have the given lengths into the months before it and the day within its
month, both counted from zero. -/
def splitYear : List Nat → Nat → Nat × Nat
  | [], n => (0, n)
  | length :: rest, n =>
    if n < length then (0, n)
    else
      let (months, n) := splitYear rest (n - length)
      (months + 1, n)

def yearOf (n : Int) : Int :=
  400 * (n / 146097) + (splitCycle (n % 146097).toNat).1 + 1

def ofDays (n : Nat) : Date :=
  let (past, n') := splitCycle (n % 146097)
  let year := 400 * (n / 146097) + past + 1
  let (months, days) := splitYear (monthLengths (isLeapYear year)) n'
  ⟨year, months + 1, days + 1⟩

end Date

end ControlPanel
