import ControlPanel.Panel.Collection

/-!
# Snapshots and saved states

A snapshot is the whole state at one time. A saved state is what storage yields: the collections
that could be read, each on its own.
-/
namespace ControlPanel

structure Snapshot where
  features : List Feature
  gpsLogs : List GpsEntry
  photoLogs : List PhotoEntry
  commandLogs : List CommandEntry
  emailQueue : List QueuedEmail
  emailAddress : String
  isOnline : Bool
  takenAt : ClockTime
  deriving DecidableEq, Repr

namespace Snapshot

def enabledFeatures (s : Snapshot) : List Feature :=
  s.features.filter Feature.enabled

def pendingEmails (s : Snapshot) : List QueuedEmail :=
  s.emailQueue.filter fun item => !item.sent

def featureById? (s : Snapshot) (id : String) : Option Feature :=
  s.features.find? fun f => f.id.text = id

def fieldNames : List String :=
  ["features", "gps_logs", "photo_logs", "command_logs", "email_queue", "email_address",
    "is_online", "taken_at"]

def read (v : Value) : Checked Snapshot :=
  Field.members v fun m =>
    (((((((((Field.optional m ["features"] (Collection.read .host .features) []).and
      (Field.optional m ["gps_logs"] (Collection.read .host .gpsLogs) [])).and
      (Field.optional m ["photo_logs"] (Collection.read .host .photoLogs) [])).and
      (Field.optional m ["command_logs"] (Collection.read .host .commandLogs) [])).and
      (Field.optional m ["email_queue"] (Collection.read .host .emailQueue) [])).and
      (Field.optional m ["email_address"] Field.text "")).and
      (Field.optional m ["is_online"] Field.bool true)).and
      (Field.required m ["taken_at"] Field.clockTime)).and
      (Field.noExtras m fieldNames)).map
        fun ((((((((features, gps), photos), commands), emails), address), online), takenAt), _) =>
          ⟨features, gps, photos, commands, emails, address, online, takenAt⟩

def toValue (s : Snapshot) : Value :=
  .record [("features", Collection.features.toValue s.features),
    ("gps_logs", Collection.gpsLogs.toValue s.gpsLogs),
    ("photo_logs", Collection.photoLogs.toValue s.photoLogs),
    ("command_logs", Collection.commandLogs.toValue s.commandLogs),
    ("email_queue", Collection.emailQueue.toValue s.emailQueue),
    ("email_address", .text s.emailAddress), ("is_online", .bool s.isOnline),
    ("taken_at", .text s.takenAt.recordText)]

end Snapshot

/-- The collections that were found in storage. -/
structure SavedState where
  content? : (c : Collection) → Option c.Content

namespace SavedState

def empty : SavedState := ⟨fun _ => none⟩

def fieldName : Collection → String
  | .features => "features"
  | .gpsLogs => "gps_logs"
  | .photoLogs => "photo_logs"
  | .commandLogs => "command_logs"
  | .emailQueue => "email_queue"
  | .emailAddress => "email_address"

def readField (m : List (String × Value)) (c : Collection) : Checked (Option c.Content) :=
  Field.optional m [fieldName c] (Field.nullable (Collection.read .host c)) none

def ofContents (features : Option (List Feature)) (gps : Option (List GpsEntry))
    (photos : Option (List PhotoEntry)) (commands : Option (List CommandEntry))
    (emails : Option (List QueuedEmail)) (address : Option String) : SavedState :=
  ⟨fun
    | .features => features
    | .gpsLogs => gps
    | .photoLogs => photos
    | .commandLogs => commands
    | .emailQueue => emails
    | .emailAddress => address⟩

def read (v : Value) : Checked SavedState :=
  Field.members v fun m =>
    (((((((readField m .features).and (readField m .gpsLogs)).and (readField m .photoLogs)).and
      (readField m .commandLogs)).and (readField m .emailQueue)).and
      (readField m .emailAddress)).and
      (Field.noExtras m (Collection.all.map fieldName))).map
        fun ((((((features, gps), photos), commands), emails), address), _) =>
          ofContents features gps photos commands emails address

def toValue (s : SavedState) : Value :=
  .record (Collection.all.map fun c =>
    (fieldName c, match s.content? c with
      | some content => c.toValue content
      | none => .null))

end SavedState

end ControlPanel
