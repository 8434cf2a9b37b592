import ControlPanel.Panel.CommandEntry
import ControlPanel.Panel.Feature
import ControlPanel.Panel.GpsEntry
import ControlPanel.Panel.PhotoEntry
import ControlPanel.Panel.QueuedEmail

/-!
# Collections

The state is kept in six collections, each with a text of its own in durable storage. The mail
address counts as a collection.
-/
namespace ControlPanel

inductive Collection where
  | features
  | gpsLogs
  | photoLogs
  | commandLogs
  | emailQueue
  | emailAddress
  deriving DecidableEq, Repr

namespace Collection

def all : List Collection :=
  [features, gpsLogs, photoLogs, commandLogs, emailQueue, emailAddress]

def key : Collection → String
  | .features => "features"
  | .gpsLogs => "gpsLogs"
  | .photoLogs => "photoLogs"
  | .commandLogs => "commandLogs"
  | .emailQueue => "emailQueue"
  | .emailAddress => "emailAddress"

def ofKey? (s : String) : Option Collection :=
  all.find? fun c => c.key = s

abbrev Content : Collection → Type
  | .features => List Feature
  | .gpsLogs => List GpsEntry
  | .photoLogs => List PhotoEntry
  | .commandLogs => List CommandEntry
  | .emailQueue => List QueuedEmail
  | .emailAddress => String

def fieldNames : Collection → List String
  | .features => ["id", "name", "description", "category", "enabled", "addedAt"]
  | .gpsLogs => ["id", "lat", "lng", "accuracy", "timestamp"]
  | .photoLogs => ["id", "uri", "timestamp"]
  | .commandLogs => ["id", "command", "result", "type", "timestamp"]
  | .emailQueue => ["id", "subject", "body", "createdAt", "sent"]
  | .emailAddress => []

/-- The records of a collection; the address is no record. -/
def records : (c : Collection) → c.Content → List Value
  | .features, items => items.map Feature.toValue
  | .gpsLogs, items => items.map GpsEntry.toValue
  | .photoLogs, items => items.map PhotoEntry.toValue
  | .commandLogs, items => items.map CommandEntry.toValue
  | .emailQueue, items => items.map QueuedEmail.toValue
  | .emailAddress, _ => []

def toValue (c : Collection) (content : c.Content) : Value :=
  match c, content with
  | .emailAddress, address => .text address
  | c, content => .list (c.records content)

def read (origin : Origin) : (c : Collection) → Value → Checked c.Content
  | .features => Field.list Feature.read
  | .gpsLogs => Field.list (GpsEntry.read origin)
  | .photoLogs => Field.list PhotoEntry.read
  | .commandLogs => Field.list CommandEntry.read
  | .emailQueue => Field.list QueuedEmail.read
  | .emailAddress => Field.text

end Collection

end ControlPanel
