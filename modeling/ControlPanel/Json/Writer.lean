import ControlPanel.Text.Utf8
import ControlPanel.Value

/-!
# Writing JSON

Records are stored without spaces; the console separates members by spaces or puts each on a line
of its own. Text beyond ASCII is written as it is, and numbers that are not finite become `null`.
Bytes are written as the text they stand for. Values with bytes that stand for none, and values
nested too deeply, cannot be written.
-/
namespace ControlPanel.Json

def escapeChar (c : Char) : List Char :=
  if c = '"' then ['\\', '"']
  else if c = '\\' then ['\\', '\\']
  else if c = '\n' then ['\\', 'n']
  else if c = '\r' then ['\\', 'r']
  else if c = '\t' then ['\\', 't']
  else if c = Char.ofNat 8 then ['\\', 'b']
  else if c = Char.ofNat 12 then ['\\', 'f']
  else if c.toNat < 32 then '\\' :: 'u' :: Text.hexDigits 4 c.toNat
  else [c]

def escape (cs : List Char) : List Char :=
  cs.flatMap escapeChar

def quote (s : String) : String :=
  String.ofList ('"' :: (escape s.toList ++ ['"']))

def writeReal (x : Binary64) : String :=
  if x.isFinite then x.write .json else "null"

/-- What stands between two members, after the name of a member, and inside brackets that are not empty. -/
structure Layout where
  separator : Nat → String
  colon : String
  opening : Nat → String
  closing : Nat → String

namespace Layout

def compact : Layout := ⟨fun _ => ",", ":", fun _ => "", fun _ => ""⟩

def spaced : Layout := ⟨fun _ => ", ", ": ", fun _ => "", fun _ => ""⟩

def newline (level : Nat) : String :=
  String.ofList ('\n' :: List.replicate (2 * level) ' ')

def indented : Layout :=
  ⟨fun level => "," ++ newline (level + 1), ": ", fun level => newline (level + 1), newline⟩

end Layout

def bracket (layout : Layout) (level : Nat) (left right : String) (parts : List String) : String :=
  if parts.isEmpty then left ++ right
  else left ++ layout.opening level ++ (layout.separator level).intercalate parts ++
    layout.closing level ++ right

mutual

def writeAt (layout : Layout) (level : Nat) : Value → String
  | .null => "null"
  | .bool b => if b then "true" else "false"
  | .int n => toString n
  | .real x => writeReal x
  | .text s => quote s
  | .bytes b => quote ((String.fromUTF8? ⟨b.toArray⟩).getD "")
  | .list items => bracket layout level "[" "]" (writeItems layout (level + 1) items)
  | .record members => bracket layout level "\x7b" "\x7d" (writeMembers layout (level + 1) members)

def writeItems (layout : Layout) (level : Nat) : List Value → List String
  | [] => []
  | item :: rest => writeAt layout level item :: writeItems layout level rest

def writeMembers (layout : Layout) (level : Nat) : List (String × Value) → List String
  | [] => []
  | (name, value) :: rest =>
    (quote name ++ layout.colon ++ writeAt layout level value) :: writeMembers layout level rest

end

def write (v : Value) (layout : Layout := .compact) : String :=
  writeAt layout 0 v

inductive WriteFault where
  | bytes (fault : Text.Utf8.Fault)
  | tooDeep
  deriving DecidableEq, Repr

def WriteFault.message : WriteFault → String
  | .bytes fault =>
    (match fault.reason with
    | .unexpectedEnd => "incomplete utf-8 byte sequence"
    | _ => "invalid utf-8 sequence of " ++ toString fault.length ++ " bytes") ++
      " from index " ++ toString fault.position
  | .tooDeep => "ValueError: Maximum serialization depth exceeded"

def depthLimit : Nat := 255

mutual

/-- Refuses a value inside `depth` brackets that cannot be written. The first fault counts. -/
def checkAt (depth : Nat) (v : Value) : Except WriteFault Unit :=
  if depthLimit < depth then .error .tooDeep
  else
    match v with
    | .bytes b =>
      match Text.ofUtf8? ⟨b.toArray⟩ with
      | .ok _ => .ok ()
      | .error fault => .error (.bytes fault)
    | .list items => checkItems (depth + 1) items
    | .record members => checkMembers (depth + 1) members
    | _ => .ok ()

def checkItems (depth : Nat) : List Value → Except WriteFault Unit
  | [] => .ok ()
  | item :: rest => do
    checkAt depth item
    checkItems depth rest

def checkMembers (depth : Nat) : List (String × Value) → Except WriteFault Unit
  | [] => .ok ()
  | (_, value) :: rest => do
    checkAt depth value
    checkMembers depth rest

end

def write? (v : Value) : Except WriteFault String := do
  checkAt 0 v
  return write v

end ControlPanel.Json
