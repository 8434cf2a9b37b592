import ControlPanel.Panel.Snapshot

/-!
# Replies

The reply to a command says whether it was accepted and carries a message and some data.
-/
namespace ControlPanel

structure Status where
  enabled : Nat
  total : Nat
  emailAddress? : Option String
  platform : Value
  version : String
  deriving BEq, Repr

namespace Status

def toValue (s : Status) : Value :=
  .record [("enabled", .int s.enabled), ("total", .int s.total),
    ("email_address", Value.ofText? s.emailAddress?), ("platform", s.platform),
    ("version", .text s.version)]

end Status

inductive Payload where
  | none
  | feature (f : Feature)
  | features (fs : List Feature)
  | email (e : QueuedEmail)
  | status (s : Status)
  /-- Data that a host attaches. -/
  | data (v : Value)
  deriving BEq, Repr

namespace Payload

def toValue : Payload → Value
  | .none => .null
  | .feature f => f.toValue
  | .features fs => .list (fs.map Feature.toValue)
  | .email e => e.toValue
  | .status s => s.toValue
  | .data v => v

end Payload

structure Reply where
  success : Bool
  message : String
  payload : Payload
  deriving BEq, Repr

namespace Reply

def accept (message : String) (payload : Payload := .none) : Reply :=
  ⟨true, message, payload⟩

def refuse (message : String) : Reply :=
  ⟨false, message, .none⟩

def kind (r : Reply) : CommandKind :=
  .ofSuccess r.success

def read (v : Value) : Checked Reply :=
  Field.members v fun m =>
    (((Field.required m ["success"] Field.bool).and
      (Field.required m ["message"] Field.text)).and
      (Field.optional m ["payload"] (fun v => Checked.ok (Payload.data v)) .none)).map
        fun ((success, message), payload) => ⟨success, message, payload⟩

def toValue (r : Reply) : Value :=
  .record [("success", .bool r.success), ("message", .text r.message),
    ("payload", r.payload.toValue), ("kind", .text r.kind.text)]

end Reply

end ControlPanel
