import ControlPanel.Number.Reading
import ControlPanel.Text.Hex
import ControlPanel.Value

/-!
# Reading JSON

One reader with two dialects. The strict one, for collections, bounds nesting and the length of
numbers and refuses halves of surrogate pairs. The open one, for single texts, reads such a half
as the replacement character and tells an overlong whole number and nesting beyond its limit apart
from malformed text. Both also understand `NaN`, `Infinity` and `-Infinity`.
-/
namespace ControlPanel.Json

inductive Bracket where
  | array
  | object
  deriving DecidableEq, Repr

def Bracket.name : Bracket → String
  | .array => "array"
  | .object => "object"

inductive Fault where
  | malformed
  | tooManyDigits (count : Nat)
  | tooDeep (bracket : Bracket)
  deriving DecidableEq, Repr

inductive Dialect where
  | strict
  | open
  deriving DecidableEq, Repr

namespace Dialect

def depthLimit : Dialect → Nat
  | .strict => 200
  | .open => 990

/-- Refuses a bracket beyond the limit. An empty one counts in the open dialect alone. -/
def checkDepth (d : Dialect) (bracket : Bracket) (isEmpty : Bool) (depth : Nat) :
    Except Fault Unit :=
  if depth ≤ d.depthLimit then .ok ()
  else
    match d with
    | .strict => if isEmpty then .ok () else .error .malformed
    | .open => .error (.tooDeep bracket)

/-- What half of a surrogate pair is read as. -/
def loneSurrogate? : Dialect → Option Char
  | .strict => none
  | .open => some (Char.ofNat 0xFFFD)

/-- Refuses a number whose whole part is too long. The open dialect looks at whole numbers only. -/
def checkLength (d : Dialect) (isWhole : Bool) (digits : Nat) : Except Fault Unit :=
  if digits ≤ digitLimit then .ok ()
  else
    match d with
    | .strict => .error .malformed
    | .open => if isWhole then .error (.tooManyDigits digits) else .ok ()

end Dialect

def isSpace (c : Char) : Bool :=
  c = ' ' || c = '\n' || c = '\r' || c = '\t'

def skipSpace (cs : List Char) : List Char :=
  cs.dropWhile isSpace

def hexQuad? : List Char → Option (Nat × List Char)
  | a :: b :: c :: d :: rest =>
    match Text.hexValue? a, Text.hexValue? b, Text.hexValue? c, Text.hexValue? d with
    | some a, some b, some c, some d => some (((a * 16 + b) * 16 + c) * 16 + d, rest)
    | _, _, _, _ => none
  | _ => none

def isHighSurrogate (code : Nat) : Bool := 0xD800 ≤ code && code < 0xDC00

def isLowSurrogate (code : Nat) : Bool := 0xDC00 ≤ code && code < 0xE000

def lowHalf? : List Char → Option (Nat × List Char)
  | '\\' :: 'u' :: rest =>
    match hexQuad? rest with
    | some (code, rest) => if isLowSurrogate code then some (code, rest) else none
    | none => none
  | _ => none

/-- The character that four hexadecimal digits and perhaps an escaped low half stand for. -/
def readUnicode (d : Dialect) (cs : List Char) : Except Fault (Char × List Char) :=
  match hexQuad? cs with
  | none => .error .malformed
  | some (code, rest) =>
    if isHighSurrogate code then
      match lowHalf? rest, d.loneSurrogate? with
      | some (low, rest), _ => .ok (Char.ofNat (0x10000 + (code - 0xD800) * 0x400 + (low - 0xDC00)), rest)
      | none, some c => .ok (c, rest)
      | none, none => .error .malformed
    else if isLowSurrogate code then
      match d.loneSurrogate? with
      | some c => .ok (c, rest)
      | none => .error .malformed
    else .ok (Char.ofNat code, rest)

def simpleEscape? : Char → Option Char
  | '"' => some '"'
  | '\\' => some '\\'
  | '/' => some '/'
  | 'b' => some (Char.ofNat 8)
  | 'f' => some (Char.ofNat 12)
  | 'n' => some '\n'
  | 'r' => some '\r'
  | 't' => some '\t'
  | _ => none

/-- The characters up to the closing quote, after those read so far (last first), and what follows the quote.
`fuel` bounds the number of characters. -/
def readChars (d : Dialect) : Nat → List Char → List Char → Except Fault (String × List Char)
  | 0, _, _ => .error .malformed
  | fuel + 1, done, cs =>
    match cs with
    | [] => .error .malformed
    | '"' :: rest => .ok (String.ofList done.reverse, rest)
    | '\\' :: 'u' :: rest =>
      match readUnicode d rest with
      | .ok (c, rest) => readChars d fuel (c :: done) rest
      | .error fault => .error fault
    | '\\' :: c :: rest =>
      match simpleEscape? c with
      | some c => readChars d fuel (c :: done) rest
      | none => .error .malformed
    | c :: rest =>
      if c = '\\' ∨ c.toNat < 32 then .error .malformed else readChars d fuel (c :: done) rest

def takeExponent (cs : List Char) : Option Int × List Char :=
  match cs with
  | [] => (none, [])
  | c :: after =>
    let (negative, rest) := takeSign after
    let (digits, rest) := takeDigits rest
    if (c = 'e' ∨ c = 'E') ∧ ¬digits.isEmpty then
      (some (if negative then -(digitsValue digits : Int) else digitsValue digits), rest)
    else (none, cs)

def takeFraction (cs : List Char) : Option (List Char) × List Char :=
  match cs with
  | '.' :: after =>
    let (digits, rest) := takeDigits after
    if digits.isEmpty then (none, cs) else (some digits, rest)
  | _ => (none, cs)

def numberValue (negative : Bool) (whole : List Char) (fraction : Option (List Char))
    (exponent : Option Int) : Value :=
  match fraction, exponent with
  | none, none => .int (if negative then -(digitsValue whole : Int) else digitsValue whole)
  | _, _ =>
    let digits := fraction.getD []
    .real (.ofDecimal negative (digitsValue (whole ++ digits)) (exponent.getD 0 - digits.length))

def takeWhole (cs : List Char) : List Char × List Char :=
  match cs with
  | '0' :: rest => (['0'], rest)
  | _ => takeDigits cs

def readNumber (d : Dialect) (negative : Bool) (cs : List Char) :
    Except Fault (Value × List Char) := do
  let (whole, rest) := takeWhole cs
  if whole.isEmpty then throw .malformed
  let (fraction, rest) := takeFraction rest
  let (exponent, rest) := takeExponent rest
  d.checkLength (fraction.isNone && exponent.isNone) whole.length
  return (numberValue negative whole fraction exponent, rest)

def literals : List (String × Value) :=
  [("null", .null), ("true", .bool true), ("false", .bool false), ("NaN", .real .nan),
    ("Infinity", .real (.infinite false)), ("-Infinity", .real (.infinite true))]

def dropWord? (word : List Char) (cs : List Char) : Option (List Char) :=
  if word.isPrefixOf cs then some (cs.drop word.length) else none

def readScalar (d : Dialect) (cs : List Char) : Except Fault (Value × List Char) :=
  match literals.findSome? fun (word, v) => (dropWord? word.toList cs).map fun rest => (v, rest) with
  | some found => .ok found
  | none =>
    match cs with
    | '-' :: rest => readNumber d true rest
    | _ => readNumber d false cs

mutual

def readValue (d : Dialect) : Nat → Nat → List Char → Except Fault (Value × List Char)
  | 0, _, _ => .error .malformed
  | fuel + 1, depth, cs =>
    match cs with
    | '"' :: rest => (readChars d (rest.length + 1) [] rest).map fun (s, rest) => (.text s, rest)
    | '[' :: rest =>
      let rest := skipSpace rest
      match d.checkDepth .array (rest.head? = some ']') (depth + 1) with
      | .error fault => .error fault
      | .ok _ =>
        match rest with
        | ']' :: rest => .ok (.list [], rest)
        | _ =>
          match readItems d fuel (depth + 1) [] rest with
          | .ok (items, rest) => .ok (.list items, rest)
          | .error fault => .error fault
    | '{' :: rest =>
      let rest := skipSpace rest
      match d.checkDepth .object (rest.head? = some '}') (depth + 1) with
      | .error fault => .error fault
      | .ok _ =>
        match rest with
        | '}' :: rest => .ok (.record [], rest)
        | _ =>
          match readMembers d fuel (depth + 1) [] rest with
          | .ok (members, rest) => .ok (.record members, rest)
          | .error fault => .error fault
    | _ => readScalar d cs

/-- The remaining items of an array after those read so far (last first), and what follows its bracket. -/
def readItems (d : Dialect) : Nat → Nat → List Value → List Char →
    Except Fault (List Value × List Char)
  | 0, _, _, _ => .error .malformed
  | fuel + 1, depth, done, cs =>
    match readValue d fuel depth cs with
    | .error fault => .error fault
    | .ok (item, rest) =>
      match skipSpace rest with
      | ',' :: rest => readItems d fuel depth (item :: done) (skipSpace rest)
      | ']' :: rest => .ok ((item :: done).reverse, rest)
      | _ => .error .malformed

def readMembers (d : Dialect) : Nat → Nat → List (String × Value) → List Char →
    Except Fault (List (String × Value) × List Char)
  | 0, _, _, _ => .error .malformed
  | fuel + 1, depth, done, cs =>
    match cs with
    | '"' :: rest =>
      match readChars d (rest.length + 1) [] rest with
      | .error fault => .error fault
      | .ok (name, rest) =>
        match skipSpace rest with
        | ':' :: rest =>
          match readValue d fuel depth (skipSpace rest) with
          | .error fault => .error fault
          | .ok (value, rest) =>
            match skipSpace rest with
            | ',' :: rest => readMembers d fuel depth ((name, value) :: done) (skipSpace rest)
            | '}' :: rest => .ok (((name, value) :: done).reverse, rest)
            | _ => .error .malformed
        | _ => .error .malformed
    | _ => .error .malformed

end

def read (d : Dialect) (s : String) : Except Fault Value :=
  let cs := skipSpace s.toList
  match readValue d (cs.length + 1) 0 cs with
  | .error fault => .error fault
  | .ok (v, rest) => if (skipSpace rest).isEmpty then .ok v else .error .malformed

end ControlPanel.Json
