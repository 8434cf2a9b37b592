import ControlPanel.Record.Checked
import ControlPanel.Value

/-!
# Record fields

Records name their fields in camel case and also accept the plain names, the former winning.
Values are taken leniently: numbers and truth values may be spelled out as text, texts may come as
their bytes, and numbers stand for times.
-/
namespace ControlPanel

structure Id where
  text : String
  nonempty : text ≠ ""
  deriving DecidableEq, Repr

def Id.of? (s : String) : Option Id :=
  if h : s ≠ "" then some ⟨s, h⟩ else none

/-- Where data comes from: handed over by a program, or read from a stored text. Whole numbers beyond the finite
doubles are refused in the one case and infinite in the other. -/
inductive Origin where
  | host
  | stored
  deriving DecidableEq, Repr

namespace Field

/-- Bytes that are the UTF-8 form of a text count as that text. -/
def spelled : Value → Value
  | .bytes b =>
    match String.fromUTF8? ⟨b.toArray⟩ with
    | some s => .text s
    | none => .bytes b
  | v => v

def text (v : Value) : Checked String :=
  match spelled v with
  | .text s => .ok s
  | _ => .wrong

def id (v : Value) : Checked Id :=
  match spelled v with
  | .text s => .ofOption (Id.of? s)
  | _ => .wrong

def noWords : List String := ["0", "off", "f", "false", "n", "no"]

def yesWords : List String := ["1", "on", "t", "true", "y", "yes"]

def boolWord? (s : String) : Option Bool :=
  let word := String.ofList (s.toList.map Char.toLower)
  if yesWords.contains word then some true
  else if noWords.contains word then some false
  else none

def boolInt? (n : Int) : Option Bool :=
  if n = 0 then some false else if n = 1 then some true else none

def bool (v : Value) : Checked Bool :=
  match spelled v with
  | .bool b => .ok b
  | .int n => .ofOption (boolInt? n)
  | .real x => .ofOption (x.toInt?.bind boolInt?)
  | .text s => .ofOption (boolWord? s)
  | _ => .wrong

def realOr (origin : Origin) (negative : Bool) : Option Binary64 → Checked Binary64
  | some x => .ok x
  | none =>
    match origin with
    | .host => .wrong
    | .stored => .ok (.infinite negative)

def realOfInt (origin : Origin) (n : Int) : Checked Binary64 :=
  realOr origin (decide (n < 0)) (Binary64.ofInt? n)

def real (origin : Origin) (v : Value) : Checked Binary64 :=
  match spelled v with
  | .real x => .ok x
  | .int n => realOfInt origin n
  | .bool b => .ok (.ofNat b.toNat)
  | .text s => .ofOption (Binary64.readField? s)
  | _ => .wrong

/-- Doubles below this size are kept as whole numbers of 64 bits. -/
def wordLimit : Int := 9223372036854775808

def wholeReal? (x : Binary64) : Option Int :=
  x.toInt?.bind fun n => if -wordLimit < n ∧ n < wordLimit then some n else none

def whole (v : Value) : Checked Int :=
  match spelled v with
  | .int n => .ok n
  | .bool b => .ok b.toNat
  | .real x => .ofOption (wholeReal? x)
  | .text s => .ofOption (readFieldInt? s)
  | _ => .wrong

def count (v : Value) : Checked Nat :=
  match whole v with
  | .ok n => if 0 ≤ n then .ok n.toNat else .wrong
  | _ => .wrong

def ofInstantFault (cause : InstantFault) : Checked Instant :=
  if cause.isInvalid then .wrong else .fault cause

def ofInstant : Except InstantFault Instant → Checked Instant
  | .ok i => .ok i
  | .error cause => ofInstantFault cause

def instant (v : Value) : Checked Instant :=
  match spelled v with
  | .int n => ofInstant (Instant.ofInt n)
  | .real x => ofInstant (Instant.ofReal x)
  | .text s => .ofOption (Instant.read? s)
  | _ => .wrong

def clockTime (v : Value) : Checked ClockTime :=
  match spelled v with
  | .int n => .ofOption (ClockTime.ofInt? n)
  | .real x => .ofOption (ClockTime.ofReal? x)
  | .text s => .ofOption (ClockTime.read? s)
  | _ => .wrong

def find? (members : List (String × Value)) (names : List String) : Option (String × Value) :=
  names.findSome? fun name => (Value.lookup? members name).map fun v => (name, v)

variable {α : Type}

/-- A field that must be present under one of its names; errors speak of the name it is found under, or the
first. -/
def required (members : List (String × Value)) (names : List String) (read : Value → Checked α) :
    Checked α :=
  match find? members names with
  | some (name, v) => (read v).within (.key name)
  | none => .invalid [⟨(names.take 1).map .key, .missing⟩]

theorem required_eq_ok {members : List (String × Value)} {names : List String}
    {read : Value → Checked α} {a : α} : required members names read = .ok a ↔
      ∃ name v, find? members names = some (name, v) ∧ read v = .ok a := by
  unfold required
  split
  · rename_i name v found
    simp [found, and_assoc]
  · rename_i absent
    simp [absent]

def optional (members : List (String × Value)) (names : List String) (read : Value → Checked α)
    (default : α) : Checked α :=
  match find? members names with
  | some (name, v) => (read v).within (.key name)
  | none => .ok default

theorem optional_eq_ok {members : List (String × Value)} {names : List String}
    {read : Value → Checked α} {default a : α} : optional members names read default = .ok a ↔
      (find? members names = none ∧ default = a) ∨
        ∃ name v, find? members names = some (name, v) ∧ read v = .ok a := by
  unfold optional
  split
  · rename_i name v found
    simp [found, and_assoc]
  · rename_i absent
    simp [absent]

def list (read : Value → Checked α) : Value → Checked (List α)
  | .list items => Checked.items read 0 items
  | _ => .wrong

def nullable (read : Value → Checked α) : Value → Checked (Option α)
  | .null => .ok none
  | v => (read v).map some

def members (v : Value) (read : List (String × Value) → Checked α) : Checked α :=
  match v with
  | .record fields => read fields
  | _ => .wrong

theorem members_eq_ok {v : Value} {read : List (String × Value) → Checked α} {a : α} :
    members v read = .ok a ↔ ∃ fields, v = .record fields ∧ read fields = .ok a := by
  unfold members
  split <;> simp_all [Checked.wrong]

/-- Refuses members whose names are not among those given, in the order in which they are present. -/
def noExtras (members : List (String × Value)) (names : List String) : Checked Unit :=
  match (members.map Prod.fst).filter fun name => !names.contains name with
  | [] => .ok ()
  | extras => .invalid (extras.map fun name => ⟨[.key name], .extra⟩)

end Field

end ControlPanel
