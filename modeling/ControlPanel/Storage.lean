import ControlPanel.Archive
import ControlPanel.Redaction
import ControlPanel.Store.Operation
import ControlPanel.Writer

/-!
# Storage

Collections are loaded one by one, each on its own: one that is absent or cannot be read or decoded
is left out. Every change is stored as the whole new text of its collection.
-/
namespace ControlPanel.Storage

structure Loaded where
  state : SavedState
  errors : List (Collection × String)
  notes : List Note

structure LoadFault where
  collection : Collection
  fault : Archive.ReadFault
  deriving DecidableEq, Repr

def LoadFault.message (f : LoadFault) : String :=
  f.fault.message f.collection

/-- One collection as it was found: absent, readable, or not to be had. -/
inductive Found (c : Collection) where
  | absent
  | content (content : c.Content)
  | error (message : String) (note : Note)

def readNote (c : Collection) (message : String) : Note :=
  .warning .storage ("Could not read key=" ++ c.key ++ ", using default: " ++ message)

def decodeNote (c : Collection) (message : String) : Note :=
  .warning .storage ("Ignoring unreadable key=" ++ c.key ++ ", using default: " ++ message)

variable {μ : Type} [Medium μ]

/-- Loads one collection. Only faults that no collection contains are raised. -/
def find (medium : μ) (c : Collection) : Except LoadFault (Found c) :=
  match Medium.read medium c.key with
  | .error fault => .ok (.error fault.text (readNote c fault.text))
  | .ok none => .ok .absent
  | .ok (some text) =>
    match Archive.decode c text with
    | .ok content => .ok (.content content)
    | .error fault =>
      if fault.isContained then .ok (.error (fault.message c) (decodeNote c (fault.message c)))
      else .error ⟨c, fault⟩

namespace Found

variable {c : Collection}

def content? : Found c → Option c.Content
  | .content a => some a
  | _ => none

def error? : Found c → Option (Collection × String)
  | .error message _ => some (c, message)
  | _ => none

def note? : Found c → Option Note
  | .error _ note => some note
  | _ => none

end Found

def keyList (cs : List Collection) : String :=
  (Value.list (cs.map fun c => .text c.key)).display

def loadedNote (present failed : List Collection) : Note :=
  .debug .storage ("Loaded persisted state present=" ++ keyList present ++
    " failed=" ++ keyList failed)

/-- The lines that loading logs before it ends, also when a fault is raised at some collection. -/
def notesBefore (medium : μ) : List Collection → List Note
  | [] => []
  | c :: rest =>
    match find medium c with
    | .ok found => found.note?.toList ++ notesBefore medium rest
    | .error _ => []

def load (medium : μ) : Except LoadFault Loaded := do
  let features ← find medium .features
  let gps ← find medium .gpsLogs
  let photos ← find medium .photoLogs
  let commands ← find medium .commandLogs
  let emails ← find medium .emailQueue
  let address ← find medium .emailAddress
  let state := SavedState.ofContents features.content? gps.content? photos.content?
    commands.content? emails.content? address.content?
  let errors := features.error?.toList ++ gps.error?.toList ++ photos.error?.toList ++
    commands.error?.toList ++ emails.error?.toList ++ address.error?.toList
  let present := Collection.all.filter fun c => (state.content? c).isSome
  return ⟨state, errors, notesBefore medium Collection.all ++ [loadedNote present (errors.map Prod.fst)]⟩

def preview (c : Collection) (content : c.Content) : Value :=
  match c, content with
  | .emailAddress, address => .record [("emailAddress", .text address)]
  | c, content =>
    let records := c.records content
    .list (records.take 3 ++
      if 3 < records.length then [.text ("... " ++ toString (records.length - 3) ++ " more")]
      else [])

def queueingNote (c : Collection) (shown : Value) : Note :=
  let text := match Redaction.redact shown with
    | .ok v => v.display
    | .error fault => fault.message
  .debug .storage ("Queueing key=" ++ c.key ++ " value=" ++ text)

def save (w : Writer μ) (c : Collection) (content : c.Content) : Writer μ :=
  (w.note (queueingNote c (preview c content))).submit ⟨c.key, Archive.encode c content⟩

def refusedNote (c : Collection) (fault : Archive.WriteFault) : Note :=
  .warning .storage ("Not persisting key=" ++ c.key ++ ": " ++ fault.message c)

/-- Queues the content of a change. One that was given as bytes is not stored. -/
def writeThrough (w : Writer μ) (change : Change) : Writer μ :=
  match change.bytes? with
  | none => save w change.collection change.content
  | some b => w.note (refusedNote change.collection (.notText (Value.bytes b).kindName))

/-- Queues the text of a value that a host hands over unchecked, if it has one. When debug lines are shown, a value
that they cannot show is not queued. -/
def saveValue (w : Writer μ) (c : Collection) (v : Value) (shown : Bool) :
    Except Redaction.Fault (Writer μ) :=
  match Archive.encodeValue c v with
  | .error fault => .ok (w.note (refusedNote c fault))
  | .ok text =>
    let preview := Value.record [("emailAddress", v)]
    match shown, Redaction.redact preview with
    | true, .error fault => .error fault
    | _, _ => .ok ((w.note (queueingNote c preview)).submit ⟨c.key, text⟩)

end ControlPanel.Storage
