import ControlPanel.Record.Field
import ControlPanel.Text.Case

/-!
# Features

A feature is a capability that can be switched on and off.
-/
namespace ControlPanel

structure Feature where
  id : Id
  name : String
  description : String
  category : String
  enabled : Bool
  addedAt : Instant
  deriving DecidableEq, Repr

namespace Feature

def defaultCategory : String := "Custom"

def read (v : Value) : Checked Feature :=
  Field.members v fun m =>
    ((((((Field.required m ["id"] Field.id).and
      (Field.required m ["name"] Field.text)).and
      (Field.required m ["description"] Field.text)).and
      (Field.optional m ["category"] Field.text defaultCategory)).and
      (Field.optional m ["enabled"] Field.bool false)).and
      (Field.required m ["addedAt", "added_at"] Field.instant)).map
        fun (((((id, name), description), category), enabled), addedAt) =>
          ⟨id, name, description, category, enabled, addedAt⟩

def toValue (f : Feature) : Value :=
  .record [("id", .text f.id.text), ("name", .text f.name), ("description", .text f.description),
    ("category", .text f.category), ("enabled", .bool f.enabled),
    ("addedAt", .text f.addedAt.recordText)]

def stateLabel (f : Feature) : String :=
  if f.enabled then "ON " else "OFF"

/-- The first feature with that id, else the first whose name matches without regard to case. -/
def find? (features : List Feature) (id name : String) : Option Feature :=
  match features.find? fun f => f.id.text = id with
  | some f => some f
  | none =>
    let wanted := Text.fold name
    features.find? fun f => Text.fold f.name = wanted

def row (f : Feature) : String :=
  "  [" ++ f.stateLabel ++ "] " ++ f.id.text ++ " - " ++ f.name ++ " (" ++ f.category ++ ")"

def listing (features : List Feature) : String :=
  if features.isEmpty then "No features registered."
  else "Features (" ++ toString features.length ++ "):\n" ++ "\n".intercalate (features.map row)

end Feature

end ControlPanel
