/-!
# Ranges of code points

Character classes and case maps are given by sorted tables of inclusive ranges of code points,
searched by halving.
-/
namespace ControlPanel.Text

/-- The code points from `first` to `last`, both included. -/
structure CodeRange where
  first : Nat
  last : Nat
  deriving DecidableEq, Repr

def CodeRange.search (table : Array CodeRange) (code low high : Nat) : Bool :=
  if low < high then
    let middle := (low + high) / 2
    match table[middle]? with
    | none => false
    | some range =>
      if code < range.first then search table code low middle
      else if range.last < code then search table code (middle + 1) high
      else true
  else false
termination_by high - low
decreasing_by all_goals omega

def CodeRange.covers (table : Array CodeRange) (code : Nat) : Bool :=
  search table code 0 table.size

/-- Every `step`-th code point from `first` to `last` is mapped `shift` places further. -/
structure CodeShift where
  first : Nat
  last : Nat
  step : Nat
  shift : Int
  deriving DecidableEq, Repr

def CodeShift.search (table : Array CodeShift) (code low high : Nat) : Nat :=
  if low < high then
    let middle := (low + high) / 2
    match table[middle]? with
    | none => code
    | some range =>
      if code < range.first then search table code low middle
      else if range.last < code then search table code (middle + 1) high
      else if (code - range.first) % range.step = 0 then (code + range.shift).toNat
      else code
  else code
termination_by high - low
decreasing_by all_goals omega

def CodeShift.apply (table : Array CodeShift) (code : Nat) : Nat :=
  search table code 0 table.size

end ControlPanel.Text
