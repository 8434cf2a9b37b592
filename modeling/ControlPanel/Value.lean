import ControlPanel.Number.Shortest
import ControlPanel.Text.Quoted

/-!
# Dynamic values

What a stored text, a host program or a sensor may hand over before it has been checked. The
members of a record keep their order; of members with the same name the last counts.
-/
namespace ControlPanel

inductive Value where
  | null
  | bool (b : Bool)
  | int (n : Int)
  | real (x : Binary64)
  | text (s : String)
  | bytes (b : List UInt8)
  | list (items : List Value)
  | record (members : List (String × Value))
  deriving BEq, Repr, Inhabited

namespace Value

/-- The last member of that name. -/
def lookup? (members : List (String × Value)) (name : String) : Option Value :=
  members.reverse.lookup name

def get? : Value → String → Option Value
  | .record members, name => lookup? members name
  | _, _ => none

def ofText? : Option String → Value
  | some s => .text s
  | none => .null

/-- Whether a value stands for yes: zeros, empty texts and empty collections do not. -/
def isTruthy : Value → Bool
  | .null => false
  | .bool b => b
  | .int n => n != 0
  | .real x => !(x.le .zero && Binary64.zero.le x)
  | .text s => !s.isEmpty
  | .bytes b => !b.isEmpty
  | .list items => !items.isEmpty
  | .record members => !members.isEmpty

def isContainer : Value → Bool
  | .list _ => true
  | .record _ => true
  | _ => false

def kindName : Value → String
  | .null => "NoneType"
  | .bool _ => "bool"
  | .int _ => "int"
  | .real _ => "float"
  | .text _ => "str"
  | .bytes _ => "bytes"
  | .list _ => "list"
  | .record _ => "dict"

mutual

def display : Value → String
  | .null => "None"
  | .bool b => if b then "True" else "False"
  | .int n => toString n
  | .real x => x.text
  | .text s => Text.quote s
  | .bytes b => Text.quoteBytes b
  | .list items => "[" ++ ", ".intercalate (displayItems items) ++ "]"
  | .record members => "\x7b" ++ ", ".intercalate (displayMembers members) ++ "\x7d"

def displayItems : List Value → List String
  | [] => []
  | item :: rest => item.display :: displayItems rest

def displayMembers : List (String × Value) → List String
  | [] => []
  | (name, value) :: rest => (Text.quote name ++ ": " ++ value.display) :: displayMembers rest

end

end Value

end ControlPanel
