import ControlPanel.Number.Binary64
import ControlPanel.Text.Blank
import ControlPanel.Text.Digit

/-!
# Reading numbers

Decimal texts are cut into sign, whole digits, fraction and exponent, and rounded once. Three
readers share that core: the bare form, a lenient one for what people type, and one for record
fields.
-/
namespace ControlPanel

def digitsValue (cs : List Char) : Nat :=
  cs.foldl (fun n c => 10 * n + (c.toNat - 48)) 0

def takeSign : List Char → Bool × List Char
  | '-' :: rest => (true, rest)
  | '+' :: rest => (false, rest)
  | cs => (false, cs)

def takeDigits (cs : List Char) : List Char × List Char :=
  (cs.takeWhile Char.isDigit, cs.dropWhile Char.isDigit)

def readExponent? : List Char → Option Int
  | [] => some 0
  | c :: rest =>
    if c = 'e' ∨ c = 'E' then
      let (negative, rest) := takeSign rest
      let (digits, rest) := takeDigits rest
      if digits.isEmpty || !rest.isEmpty then none
      else some (if negative then -(digitsValue digits : Int) else digitsValue digits)
    else none

namespace Binary64

def readDecimal? (negative : Bool) (cs : List Char) : Option Binary64 :=
  let (whole, rest) := takeDigits cs
  let (fraction, rest) :=
    match rest with
    | '.' :: rest => takeDigits rest
    | _ => ([], rest)
  if whole.isEmpty && fraction.isEmpty then none
  else (readExponent? rest).map fun exponent =>
    ofDecimal negative (digitsValue (whole ++ fraction)) (exponent - fraction.length)

def read? (cs : List Char) : Option Binary64 :=
  let (negative, rest) := takeSign cs
  let name := rest.map Char.toLower
  if name = "inf".toList ∨ name = "infinity".toList then some (.infinite negative)
  else if name = "nan".toList then some .nan
  else readDecimal? negative rest

/-- Removes underscores that stand between two digits; `none` if one stands elsewhere. -/
def joinDigits? : List Char → Option (List Char)
  | [] => some []
  | c :: '_' :: rest =>
    match rest with
    | d :: _ => if c.isDigit && d.isDigit then (joinDigits? rest).map (c :: ·) else none
    | [] => none
  | c :: rest => if c = '_' then none else (joinDigits? rest).map (c :: ·)

/-- The ASCII form of a character of a typed number: digits of any script and any blank are understood. -/
def plainChar (c : Char) : Char :=
  if c.toNat < 127 then c
  else if Text.isBlank c then ' '
  else match Text.digitValue? c with
    | some d => Char.ofNat (48 + d)
    | none => '?'

def readTyped? (s : String) : Option Binary64 :=
  let cs := s.toList
  let plain := if cs.all fun c => c.toNat < 128 then cs else cs.map plainChar
  (joinDigits? (Text.trimOf Text.isAsciiSpace plain)).bind read?

/-- Removes single underscores inside a text; `none` if there is none, or one at an end or beside another. -/
def dropUnderscores? (cs : List Char) : Option (List Char) :=
  let pieces := cs.splitOn '_'
  if pieces.length < 2 || pieces.any List.isEmpty then none else some pieces.flatten

def readField? (s : String) : Option Binary64 :=
  match read? (Text.trimOf Text.isSpace s.toList) with
  | some x => some x
  | none => (dropUnderscores? s.toList).bind read?

end Binary64

def digitLimit : Nat := 4300

def readCanonicalInt? (cs : List Char) : Option Int :=
  let (negative, digits) :=
    match cs with
    | '-' :: rest => (true, rest)
    | _ => (false, cs)
  if digits.isEmpty || !digits.all Char.isDigit || digitLimit < digits.length then none
  else if digits.head? = some '0' ∧ digits ≠ ['0'] then none
  else some (if negative then -(digitsValue digits : Int) else digitsValue digits)

/-- Drops leading zeros, and underscores among them, up to the last one before the end or a point. A sign may
follow the zeros. -/
def dropLeadingZeros? : List Char → Option (List Char)
  | '0' :: rest => dropZeros '0' rest
  | c :: rest => if c.isDigit then some (c :: rest) else none
  | [] => none
where
  dropZeros (last : Char) : List Char → Option (List Char)
    | [] => some [last]
    | c :: rest =>
      if c = '0' ∨ c = '_' then dropZeros c rest
      else if c.isDigit ∨ c = '-' then some (c :: rest)
      else if c = '.' then some (last :: c :: rest)
      else none

def dropSignedZeros? : List Char → Option (List Char)
  | '+' :: rest => dropLeadingZeros? rest
  | '-' :: rest => (dropLeadingZeros? rest).map ('-' :: ·)
  | cs => dropLeadingZeros? cs

def dropZeroFraction (cs : List Char) : List Char :=
  match cs.dropWhile (· ≠ '.') with
  | _ :: zeros => if !zeros.isEmpty && zeros.all (· = '0') then cs.takeWhile (· ≠ '.') else cs
  | [] => cs

def readFieldInt? (s : String) : Option Int :=
  (dropSignedZeros? (Text.trimOf Text.isSpace s.toList)).bind fun cs =>
    let whole := dropZeroFraction cs
    readCanonicalInt? ((Binary64.dropUnderscores? whole).getD whole)

end ControlPanel
