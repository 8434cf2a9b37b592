/-!
# Double-precision numbers

A finite double is a sign and a whole number of quanta, a quantum being `2 ^ -1074`. The whole
numbers that occur are those below `2 ^ 2098` with at most 53 significant bits, so every finite
double has one representation and all arithmetic is exact arithmetic on naturals followed by one
rounding to nearest, ties to even.
-/
namespace ControlPanel

/-- The whole number nearest to `num / den`, a half going to the even neighbour. -/
def roundHalfEven (num den : Nat) : Nat :=
  let whole := num / den
  let rest := num % den
  if 2 * rest < den then whole
  else if den < 2 * rest then whole + 1
  else whole + whole % 2

namespace Binary64

def powerOfTwo (n : Nat) : Nat := Nat.pow 2 n

@[irreducible]
def one : Nat := powerOfTwo 1074

@[irreducible]
def limit : Nat := powerOfTwo 2098

/-- The least power of two that a number of quanta with the leading bit of `n` is a multiple of. -/
@[irreducible]
def spacing (n : Nat) : Nat := powerOfTwo (n.log2 - 52)

def Fits (n : Nat) : Prop := n < limit ∧ n % spacing n = 0

instance (n : Nat) : Decidable (Fits n) := inferInstanceAs (Decidable (_ ∧ _))

end Binary64

structure Magnitude where
  quanta : Nat
  fits : Binary64.Fits quanta
  deriving DecidableEq, Repr

inductive Binary64 where
  | finite (negative : Bool) (size : Magnitude)
  | infinite (negative : Bool)
  | nan
  deriving DecidableEq, Repr

namespace Binary64

def ofQuanta (negative : Bool) (quanta : Nat) : Binary64 :=
  if fits : Fits quanta then .finite negative ⟨quanta, fits⟩ else .infinite negative

/-- The quanta nearest to `num / den` among those that a double with its leading bit can have. -/
def nearestQuanta (num den : Nat) : Nat :=
  let unit := spacing (num * one / den)
  roundHalfEven (num * one) (den * unit) * unit

/-- The double nearest to `± num / den`, infinite when that lies beyond the finite range. -/
def ofRatio (negative : Bool) (num den : Nat) : Binary64 :=
  ofQuanta negative (nearestQuanta num den)

def ofQuotient (num : Int) (den : Nat) : Binary64 :=
  ofRatio (decide (num < 0)) num.natAbs den

def ofNat (n : Nat) : Binary64 := ofRatio false n 1

def zero : Binary64 := ofNat 0

def unlessInfinite? : Binary64 → Option Binary64
  | .infinite _ => none
  | x => some x

def ofInt? (n : Int) : Option Binary64 :=
  (ofQuotient n 1).unlessInfinite?

/-- `± coefficient * 10 ^ exponent`, rounded. Exponents far outside the range are not computed with. -/
def ofDecimal (negative : Bool) (coefficient : Nat) (exponent : Int) : Binary64 :=
  let length : Int := (Nat.toDigits 10 coefficient).length
  if coefficient = 0 then ofRatio negative 0 1
  else if 310 < length + exponent then .infinite negative
  else if length + exponent < -324 then ofRatio negative 0 1
  else if 0 ≤ exponent then ofRatio negative (coefficient * Nat.pow 10 exponent.toNat) 1
  else ofRatio negative coefficient (Nat.pow 10 (-exponent).toNat)

def isFinite : Binary64 → Bool
  | .finite .. => true
  | _ => false

def isNegative : Binary64 → Bool
  | .finite negative _ => negative
  | .infinite negative => negative
  | .nan => false

def quanta? : Binary64 → Option Int
  | .finite negative size => some (if negative then -size.quanta else size.quanta)
  | _ => none

/-- Comparison as of numbers: the zeros are equal and nothing compares with `nan`. -/
def le : Binary64 → Binary64 → Bool
  | .nan, _ => false
  | _, .nan => false
  | .infinite a, y => a || y == .infinite false
  | _, .infinite b => !b
  | x, y => decide (x.quanta?.getD 0 ≤ y.quanta?.getD 0)

def divNat (x : Binary64) (n : Nat) : Binary64 :=
  match x with
  | .finite negative size => ofRatio negative size.quanta (n * one)
  | x => x

def mulNat (x : Binary64) (n : Nat) : Binary64 :=
  match x with
  | .finite negative size => ofRatio negative (size.quanta * n) one
  | x => x

def roundInt? : Binary64 → Option Int
  | .finite negative size =>
    let n := roundHalfEven size.quanta one
    some (if negative then -(n : Int) else n)
  | _ => none

def toInt? (x : Binary64) : Option Int :=
  match x.quanta? with
  | some q => if q % one = 0 then some (q / one) else none
  | none => none

/-- The double nearest to the value rounded to two decimals, a half of a hundredth going to the even one. -/
def roundHundredths : Binary64 → Binary64
  | .finite negative size => ofRatio negative (roundHalfEven (size.quanta * 100) one) 100
  | x => x

end Binary64

end ControlPanel
