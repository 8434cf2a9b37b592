import ControlPanel.Record.Field

/-!
# Recorded commands
-/
namespace ControlPanel

inductive CommandKind where
  | success
  | error
  | info
  deriving DecidableEq, Repr

namespace CommandKind

def text : CommandKind → String
  | .success => "success"
  | .error => "error"
  | .info => "info"

def ofText? (s : String) : Option CommandKind :=
  [success, error, info].find? fun k => k.text = s

def ofSuccess (success : Bool) : CommandKind :=
  if success then .success else .error

def read (v : Value) : Checked CommandKind :=
  match Field.spelled v with
  | .text s => .ofOption (ofText? s)
  | _ => .wrong

end CommandKind

structure CommandEntry where
  id : Id
  command : String
  result : String
  kind : CommandKind
  timestamp : Instant
  deriving DecidableEq, Repr

namespace CommandEntry

def read (v : Value) : Checked CommandEntry :=
  Field.members v fun m =>
    (((((Field.required m ["id"] Field.id).and
      (Field.required m ["command"] Field.text)).and
      (Field.required m ["result"] Field.text)).and
      (Field.optional m ["type", "kind"] CommandKind.read .info)).and
      (Field.required m ["timestamp"] Field.instant)).map
        fun ((((id, command), result), kind), timestamp) => ⟨id, command, result, kind, timestamp⟩

def toValue (e : CommandEntry) : Value :=
  .record [("id", .text e.id.text), ("command", .text e.command), ("result", .text e.result),
    ("type", .text e.kind.text), ("timestamp", .text e.timestamp.recordText)]

end CommandEntry

end ControlPanel
