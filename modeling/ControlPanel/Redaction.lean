import ControlPanel.Text.Case
import ControlPanel.Value

/-!
# Redaction

What goes into debug lines keeps no mail address, no exact place, no photo handle and no mail
body. An address keeps the first character of its local part and its domain.
-/
namespace ControlPanel.Redaction

def isAsciiWord (c : Char) : Bool :=
  c.toNat < 128 && c.isAlphanum

def isLocal (c : Char) : Bool :=
  isAsciiWord c || c = '.' || c = '_' || c = '%' || c = '+' || c = '-'

def isDomain (c : Char) : Bool :=
  isAsciiWord c || c = '.' || c = '-'

theorem length_dropWhile_le (p : Char → Bool) (cs : List Char) :
    (cs.dropWhile p).length ≤ cs.length := by
  induction cs with
  | nil => simp
  | cons c rest ih => by_cases h : p c <;> simp [h]; omega

/-- Masks the addresses in a text from left to right, each as long as it can be. -/
def maskOf (cs : List Char) : List Char :=
  match cs with
  | [] => []
  | c :: rest =>
    if isLocal c then
      match _h : rest.dropWhile isLocal with
      | '@' :: after =>
        if (after.takeWhile isDomain).isEmpty then
          c :: rest.takeWhile isLocal ++ '@' :: maskOf after
        else
          c :: "***@".toList ++ after.takeWhile isDomain ++ maskOf (after.dropWhile isDomain)
      | others => c :: rest.takeWhile isLocal ++ maskOf others
    else c :: maskOf rest
termination_by cs.length
decreasing_by
  all_goals
    have drop := length_dropWhile_le isLocal rest
    try have more := length_dropWhile_le isDomain after
    try rw [_h] at drop
    simp only [List.length_cons] at *
    omega

def maskAddresses (s : String) : String :=
  String.ofList (maskOf s.toList)

/-- The start of a text up to a limit; a negative limit counts from the end. -/
def clip (limit : Int) (cs : List Char) : List Char :=
  cs.take (if limit < 0 then (cs.length + limit).toNat else limit.toNat)

/-- The longest text that is shown in full. A host may give any value for it; only whole numbers can cut. -/
inductive Limit where
  | count (n : Int)
  | real (x : Binary64)
  | other (kind : String)
  deriving DecidableEq, Repr

def Limit.ofValue : Value → Limit
  | .int n => .count n
  | .bool b => .count b.toNat
  | .real x => .real x
  | v => .other v.kindName

inductive Fault where
  | beyondReals
  | notWhole
  | notComparable (kind : String)
  deriving DecidableEq, Repr

def Fault.message : Fault → String
  | .beyondReals => "int too large to convert to float"
  | .notWhole => "slice indices must be integers or None or have an __index__ method"
  | .notComparable kind => "'>' not supported between instances of 'int' and '" ++ kind ++ "'"

def redactText (limit : Limit) (s : String) : Except Fault String :=
  let masked := maskOf s.toList
  match limit with
  | .count n =>
    .ok (if n < masked.length then String.ofList (clip n masked) ++ "\u2026<truncated>"
      else String.ofList masked)
  | .real x =>
    if x = .nan ∨ (Binary64.ofNat masked.length).le x then .ok (String.ofList masked)
    else .error .notWhole
  | .other kind => .error (.notComparable kind)

def hiddenNames : List String := ["uri", "body"]

def coordinateNames : List String := ["lat", "lng", "latitude", "longitude"]

/-- The number that a coordinate is rounded from; other values are no coordinates. -/
inductive Coordinate where
  | number (x : Binary64)
  | tooLarge
  | other
  deriving DecidableEq, Repr

def coordinate : Value → Coordinate
  | .int n =>
    match Binary64.ofInt? n with
    | some x => .number x
    | none => .tooLarge
  | .real x => .number x
  | _ => .other

def depthLimit : Nat := 10

mutual

def redactAt (limit : Limit) (depth : Nat) (v : Value) : Except Fault Value :=
  if depthLimit < depth then .ok (.text "<max-depth>")
  else
    match v with
    | .text s => (redactText limit s).map .text
    | .bytes b => .ok (.text (Text.quoteBytes b))
    | .list items => (redactItems limit (depth + 1) items).map .list
    | .record members => (redactMembers limit (depth + 1) members).map .record
    | v => .ok v

def redactItems (limit : Limit) (depth : Nat) : List Value → Except Fault (List Value)
  | [] => .ok []
  | item :: rest => do
    let item ← redactAt limit depth item
    let rest ← redactItems limit depth rest
    return item :: rest

def redactMembers (limit : Limit) (depth : Nat) :
    List (String × Value) → Except Fault (List (String × Value))
  | [] => .ok []
  | (name, v) :: rest => do
    let shown ←
      if hiddenNames.contains (Text.lower name) then pure (Value.text "<redacted>")
      else if coordinateNames.contains (Text.lower name) then
        match coordinate v with
        | .number x => pure (.real x.roundHundredths)
        | .tooLarge => throw .beyondReals
        | .other => redactAt limit depth v
      else redactAt limit depth v
    let rest ← redactMembers limit depth rest
    return (name, shown) :: rest

end

def defaultLimit : Limit := .count 256

def redact (v : Value) (limit : Limit := defaultLimit) : Except Fault Value :=
  redactAt limit 0 v

end ControlPanel.Redaction
