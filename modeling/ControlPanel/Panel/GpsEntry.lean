import ControlPanel.Record.Field

/-!
# Recorded locations
-/
namespace ControlPanel

/-- A location with its accuracy in whole meters, `0` if unknown. -/
structure GpsEntry where
  id : Id
  lat : Binary64
  lng : Binary64
  accuracy : Nat
  timestamp : Instant
  deriving DecidableEq, Repr

namespace GpsEntry

def read (origin : Origin) (v : Value) : Checked GpsEntry :=
  Field.members v fun m =>
    (((((Field.required m ["id"] Field.id).and
      (Field.required m ["lat"] (Field.real origin))).and
      (Field.required m ["lng"] (Field.real origin))).and
      (Field.optional m ["accuracy"] Field.count 0)).and
      (Field.required m ["timestamp"] Field.instant)).map
        fun ((((id, lat), lng), accuracy), timestamp) => ⟨id, lat, lng, accuracy, timestamp⟩

def toValue (e : GpsEntry) : Value :=
  .record [("id", .text e.id.text), ("lat", .real e.lat), ("lng", .real e.lng),
    ("accuracy", .int e.accuracy), ("timestamp", .text e.timestamp.recordText)]

end GpsEntry

end ControlPanel
