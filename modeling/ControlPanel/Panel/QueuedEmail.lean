import ControlPanel.Record.Field

/-!
# Queued mail
-/
namespace ControlPanel

structure QueuedEmail where
  id : Id
  subject : String
  body : String
  createdAt : Instant
  sent : Bool
  deriving DecidableEq, Repr

namespace QueuedEmail

def read (v : Value) : Checked QueuedEmail :=
  Field.members v fun m =>
    (((((Field.required m ["id"] Field.id).and
      (Field.required m ["subject"] Field.text)).and
      (Field.required m ["body"] Field.text)).and
      (Field.required m ["createdAt", "created_at"] Field.instant)).and
      (Field.optional m ["sent"] Field.bool false)).map
        fun ((((id, subject), body), createdAt), sent) => ⟨id, subject, body, createdAt, sent⟩

def toValue (e : QueuedEmail) : Value :=
  .record [("id", .text e.id.text), ("subject", .text e.subject), ("body", .text e.body),
    ("createdAt", .text e.createdAt.recordText), ("sent", .bool e.sent)]

end QueuedEmail

end ControlPanel
