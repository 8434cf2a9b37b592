import ControlPanel.Failure
import ControlPanel.Feed
import ControlPanel.Log
import ControlPanel.Panel.Snapshot

/-!
# The store

The store holds the whole state. Three of its histories are capped and kept newest first. Every
operation that changes a collection commits first and then says so by one change, which carries the
whole new content of that collection.
-/
namespace ControlPanel

structure Store where
  features : List Feature
  gpsLogs : List GpsEntry
  photoLogs : List PhotoEntry
  commandLogs : List CommandEntry
  emailQueue : List QueuedEmail
  emailAddress : String
  isOnline : Bool
  /-- The identifiers of features that have been removed; they are not used again. -/
  retired : List String
  /-- How many changes have been committed. -/
  changes : Nat
  deriving DecidableEq, Repr

/-- The new content of a collection after a change, with the number of the change. -/
structure Change where
  sequence : Nat
  collection : Collection
  content : collection.Content
  /-- The bytes that a host gave for the content. -/
  bytes? : Option (List UInt8)

namespace Store

def gpsCap : Nat := 200

def photoCap : Nat := 100

def commandCap : Nat := 500

def empty : Store := ⟨[], [], [], [], [], "", true, [], 0⟩

def content (s : Store) : (c : Collection) → c.Content
  | .features => s.features
  | .gpsLogs => s.gpsLogs
  | .photoLogs => s.photoLogs
  | .commandLogs => s.commandLogs
  | .emailQueue => s.emailQueue
  | .emailAddress => s.emailAddress

def seedRows : List (Id × String × String × String × Bool) :=
  [(⟨"f001", by decide⟩, "GPS Tracking", "Real-time location logging", "Sensors", true),
    (⟨"f002", by decide⟩, "Camera Capture", "Offline photo capture", "Sensors", true),
    (⟨"f003", by decide⟩, "Email Sync", "Sync data when online", "Network", true),
    (⟨"f004", by decide⟩, "Dark Mode", "Always-on dark interface", "UI", true),
    (⟨"f005", by decide⟩, "Haptic Feedback", "Tactile button responses", "UI", true),
    (⟨"f006", by decide⟩, "Auto GPS Log", "Log GPS every 30 seconds", "Sensors", false),
    (⟨"f007", by decide⟩, "Battery Monitor", "Track battery usage", "System", false),
    (⟨"f008", by decide⟩, "Network Watch", "Monitor connectivity state", "Network", true),
    (⟨"f009", by decide⟩, "Command History", "Save all command logs", "System", true),
    (⟨"f010", by decide⟩, "Photo Compression", "Compress photos on save", "Sensors", false)]

def seedFeatures (now : Instant) : List Feature :=
  seedRows.map fun (id, name, description, category, enabled) =>
    ⟨id, name, description, category, enabled, now⟩

def create (seeded : Bool) (supplies : Supplies) : Option Store × Supplies :=
  if seeded then
    let (now?, supplies) := supplies.now
    (now?.map fun now => { empty with features := seedFeatures now.instant }, supplies)
  else (some empty, supplies)

def snapshot (s : Store) (supplies : Supplies) : Option Snapshot × Supplies :=
  let (now?, supplies) := supplies.now
  (now?.map fun now => ⟨s.features, s.gpsLogs, s.photoLogs, s.commandLogs, s.emailQueue,
    s.emailAddress, s.isOnline, now⟩, supplies)

/-- Installs what was found in storage; the other collections stay as they are. No change is announced. -/
def restore (s : Store) (saved : SavedState) : Store :=
  { s with
    features := (saved.content? .features).getD s.features
    gpsLogs := ((saved.content? .gpsLogs).map (·.take gpsCap)).getD s.gpsLogs
    photoLogs := ((saved.content? .photoLogs).map (·.take photoCap)).getD s.photoLogs
    commandLogs := ((saved.content? .commandLogs).map (·.take commandCap)).getD s.commandLogs
    emailQueue := (saved.content? .emailQueue).getD s.emailQueue
    emailAddress := (saved.content? .emailAddress).getD s.emailAddress }

def restoreNote (s : Store) : Note :=
  .debug .store ("Store restored features=" ++ toString s.features.length ++
    " gps=" ++ toString s.gpsLogs.length ++ " photos=" ++ toString s.photoLogs.length ++
    " commands=" ++ toString s.commandLogs.length ++ " emails=" ++ toString s.emailQueue.length)

def handlerNote (c : Collection) : Note :=
  .warning .store ("Write-through handler failed for key=" ++ c.key)

end Store

/-- Whether a record may take what a feed of identifiers hands out: what stands for no may not be taken, nor may
a text that is taken already. Other values equal no text. -/
def isFreeId (taken : List String) (candidate : Value) : Bool :=
  candidate.isTruthy &&
    match candidate with
    | .text s => !taken.contains s
    | _ => true

def Feed.allocate (taken : List String) : Nat → Feed Value → Option Value × Feed Value
  | 0, ids => (none, ids)
  | attempts + 1, ids =>
    let (candidate, ids) := ids.next
    if isFreeId taken candidate then (some candidate, ids) else allocate taken attempts ids

/-- A fresh identifier, and then the time. A list or record cannot be compared with the identifiers that are taken;
any other value that is no text is noticed only once the time has been taken. -/
def Supplies.stamp (s : Supplies) (taken : List String) : Except Failure (Id × Instant) × Supplies :=
  match s.ids.allocate taken idAttempts with
  | (none, ids) => (.error (.refused .idsExhausted), { s with ids := ids })
  | (some candidate, ids) =>
    let s := { s with ids := ids }
    if candidate.isContainer then (.error (.notComparable candidate.kindName), s)
    else
      let field := (Field.id candidate).within (.key "id")
      match s.now, field.value? with
      | (none, s), _ => (.error .calendarEnded, s)
      | (some now, s), some id => (.ok (id, now.instant), s)
      | (some _, s), none => (.error (.wrongFields field.errors), s)

/-- What an operation leads to: its result, the new store, what is left of the supplies, the change it
committed, and the lines it logs once that change has been dealt with. -/
structure Outcome (α : Type) where
  result : Except Failure α
  store : Store
  supplies : Supplies
  change? : Option Change
  notes : List Note

namespace Outcome

variable {α β : Type}

def map (f : α → β) (o : Outcome α) : Outcome β :=
  ⟨o.result.map f, o.store, o.supplies, o.change?, o.notes⟩

def unchanged (store : Store) (supplies : Supplies) (a : α) : Outcome α :=
  ⟨.ok a, store, supplies, none, []⟩

def fail (store : Store) (supplies : Supplies) (failure : Failure) : Outcome α :=
  ⟨.error failure, store, supplies, none, []⟩

def refuse (store : Store) (supplies : Supplies) (reason : Refusal) : Outcome α :=
  fail store supplies (.refused reason)

def commit (store : Store) (supplies : Supplies) (c : Collection) (a : α) (notes : List Note) :
    Outcome α :=
  let store := { store with changes := store.changes + 1 }
  ⟨.ok a, store, supplies, some ⟨store.changes, c, store.content c, none⟩, notes⟩

end Outcome

end ControlPanel
