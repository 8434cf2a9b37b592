import ControlPanel.Record.Field

/-!
# Captured photos
-/
namespace ControlPanel

/-- A photo, known by a handle that only its host understands. -/
structure PhotoEntry where
  id : Id
  uri : String
  timestamp : Instant
  deriving DecidableEq, Repr

namespace PhotoEntry

def read (v : Value) : Checked PhotoEntry :=
  Field.members v fun m =>
    (((Field.required m ["id"] Field.id).and
      (Field.required m ["uri"] Field.text)).and
      (Field.required m ["timestamp"] Field.instant)).map
        fun ((id, uri), timestamp) => ⟨id, uri, timestamp⟩

def toValue (e : PhotoEntry) : Value :=
  .record [("id", .text e.id.text), ("uri", .text e.uri),
    ("timestamp", .text e.timestamp.recordText)]

end PhotoEntry

end ControlPanel
