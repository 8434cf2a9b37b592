import ControlPanel.Number.Binary64

/-!
# Shortest decimal forms

The decimal form of a double has the fewest digits that read back as that double, and of those
with that many digits it is the nearest. The reals that read back form an interval around the
value, closed exactly when the significand is even.
-/
namespace ControlPanel

structure Decimal where
  coefficient : Nat
  exponent : Int
  deriving DecidableEq, Repr

namespace Decimal

def digits (d : Decimal) : List Char :=
  Nat.toDigits 10 d.coefficient

def leading (d : Decimal) : Int :=
  d.exponent + d.digits.length - 1

def stripped (d : Decimal) : Nat → Decimal
  | 0 => d
  | fuel + 1 =>
    if d.coefficient ≠ 0 ∧ d.coefficient % 10 = 0 then
      stripped ⟨d.coefficient / 10, d.exponent + 1⟩ fuel
    else d

end Decimal

namespace Magnitude

/-- Quarters of a quantum from which on upwards numbers round to `m`. The gap below a power of two is half as wide. -/
def lowerEnd (m : Magnitude) : Nat :=
  let unit := Binary64.spacing m.quanta
  4 * m.quanta - (if m.quanta = Nat.pow 2 52 * unit ∧ 1 < unit then unit else 2 * unit)

def upperEnd (m : Magnitude) : Nat :=
  4 * m.quanta + 2 * Binary64.spacing m.quanta

def closed (m : Magnitude) : Bool :=
  (m.quanta / Binary64.spacing m.quanta) % 2 == 0

def holds (m : Magnitude) (num den : Nat) : Bool :=
  if m.closed then m.lowerEnd * den ≤ 4 * num && 4 * num ≤ m.upperEnd * den
  else m.lowerEnd * den < 4 * num && 4 * num < m.upperEnd * den

def leading (m : Magnitude) : Int :=
  if Binary64.one ≤ m.quanta then (Nat.toDigits 10 (m.quanta / Binary64.one)).length - 1
  else -(Nat.toDigits 10 (Binary64.one / m.quanta)).length

/-- The nearer of the two neighbours of `m` among the multiples of `10 ^ exponent` that rounds to `m`, if one does. -/
def nearest? (m : Magnitude) (exponent : Int) : Option Decimal :=
  let up := Nat.pow 10 exponent.toNat
  let down := Nat.pow 10 (-exponent).toNat
  let num := m.quanta * down
  let den := Binary64.one * up
  let below := num / den
  let reads (n : Nat) : Bool := m.holds (n * den) down
  let first := roundHalfEven num den
  let second := if first = below then below + 1 else below
  if reads first then some ⟨first, exponent⟩
  else if reads second then some ⟨second, exponent⟩
  else none

def shortest (m : Magnitude) : Decimal :=
  if m.quanta = 0 then ⟨0, 0⟩
  else
    match (List.range 17).findSome? fun (n : Nat) => m.nearest? (m.leading - n) with
    | some d => d.stripped 400
    | none => ⟨0, 0⟩

end Magnitude

/-- How decimals are written: which exponents are written with leading zeros instead of an
exponent mark, and how many digits an exponent has at least. -/
structure RealStyle where
  leastLeading : Int
  exponentWidth : Nat

namespace RealStyle

def plain : RealStyle := ⟨-4, 2⟩

def json : RealStyle := ⟨-5, 1⟩

def exponentText (style : RealStyle) (e : Int) : List Char :=
  let digits := Nat.toDigits 10 e.natAbs
  'e' :: (if e < 0 then '-' else '+') ::
    (List.replicate (style.exponentWidth - digits.length) '0' ++ digits)

/-- From `10 ^ 16` on, and below the style's least exponent, with an exponent mark; otherwise with a point and
at least one digit on either side of it. -/
def write (style : RealStyle) (d : Decimal) : List Char :=
  let digits := d.digits
  let leading := d.leading
  if leading < style.leastLeading ∨ 16 ≤ leading then
    match digits with
    | [digit] => digit :: style.exponentText leading
    | digit :: rest => digit :: '.' :: (rest ++ style.exponentText leading)
    | [] => []
  else if 0 ≤ d.exponent then digits ++ List.replicate d.exponent.toNat '0' ++ ['.', '0']
  else if 0 ≤ leading then
    digits.take (leading.toNat + 1) ++ '.' :: digits.drop (leading.toNat + 1)
  else '0' :: '.' :: (List.replicate (-leading - 1).toNat '0' ++ digits)

end RealStyle

namespace Binary64

def write (style : RealStyle) : Binary64 → String
  | .finite negative size =>
    String.ofList ((if negative then ['-'] else []) ++ style.write size.shortest)
  | .infinite negative => if negative then "-inf" else "inf"
  | .nan => "nan"

def text (x : Binary64) : String :=
  x.write .plain

end Binary64

end ControlPanel
