import ControlPanel.Store.Basic

/-!
# Store operations

An operation that fails leaves the store as it was. A new record takes the first free identifier
and then the time.
-/
namespace ControlPanel

namespace Store

def takenFeatureIds (s : Store) : List String :=
  s.features.map (fun f => f.id.text) ++ s.retired

def withRecord {α : Type} (s : Store) (supplies : Supplies) (taken : List String) (c : Collection)
    (make : Id → Instant → α) (insert : α → Store) (notes : α → List Note) : Outcome α :=
  match supplies.stamp taken with
  | (.error failure, supplies) => .fail s supplies failure
  | (.ok (id, now), supplies) =>
    let entry := make id now
    .commit (insert entry) supplies c entry (notes entry)

/-- Appends a feature that is switched off, with its texts as they are. -/
def insertFeature (s : Store) (supplies : Supplies) (name description category : String) :
    Outcome Feature :=
  s.withRecord supplies s.takenFeatureIds .features
    (fun id now => ⟨id, name, description, category, false, now⟩)
    (fun f => { s with features := s.features ++ [f] })
    (fun f => [.debug .store ("Feature added id=" ++ f.id.text ++ " category=" ++ f.category)])

def addFeature (s : Store) (supplies : Supplies) (name description category : String) :
    Outcome Feature :=
  let name := Text.trim name
  let description := Text.trim description
  let category := Text.trim category
  if name.isEmpty || description.isEmpty then .refuse s supplies .blankFeature
  else
    s.insertFeature supplies name description
      (if category.isEmpty then Feature.defaultCategory else category)

/-- The features before the first one with that identifier, that one, and those after it. -/
def splitFeature? (id : String) : List Feature → Option (List Feature × Feature × List Feature)
  | [] => none
  | f :: rest =>
    if f.id.text = id then some ([], f, rest)
    else (splitFeature? id rest).map fun (before, found, after) => (f :: before, found, after)

def getFeature? (s : Store) (id : String) : Option Feature :=
  s.features.find? fun f => f.id.text = id

def removeFeature (s : Store) (supplies : Supplies) (id : String) : Outcome (Option Feature) :=
  match splitFeature? id s.features with
  | none => .unchanged s supplies none
  | some (before, f, after) =>
    .commit { s with features := before ++ after, retired := f.id.text :: s.retired } supplies
      .features (some f) [.debug .store ("Feature removed id=" ++ f.id.text)]

/-- Switches a feature on or off; a feature that is so already is not written. -/
def setFeatureEnabled (s : Store) (supplies : Supplies) (id : String) (enabled : Bool) :
    Outcome Feature :=
  match splitFeature? id s.features with
  | none => .refuse s supplies (.featureNotFound id)
  | some (before, f, after) =>
    if f.enabled = enabled then .unchanged s supplies f
    else
      let f := { f with enabled := enabled }
      .commit { s with features := before ++ f :: after } supplies .features f []

def toggleFeature (s : Store) (supplies : Supplies) (id : String) : Outcome Feature :=
  match splitFeature? id s.features with
  | none => .refuse s supplies (.featureNotFound id)
  | some (before, f, after) =>
    let f := { f with enabled := !f.enabled }
    .commit { s with features := before ++ f :: after } supplies .features f []

/-- A coordinate: a finite double, or a number or text that stands for one. -/
def coordinate (name : String) (v : Value) : Except Failure Binary64 :=
  match v with
  | .bool _ => .error (.refused (.notFinite name v))
  | v =>
    match v.toReal with
    | .ok x => if x.isFinite then .ok x else .error (.refused (.notFinite name v))
    | .error .tooLarge => .error (.number .tooLarge)
    | .error _ => .error (.refused (.notFinite name v))

def checkAccuracy (v : Value) : Except Failure Nat :=
  match v with
  | .int n => if 0 ≤ n then .ok n.toNat else .error (.refused (.badAccuracy v))
  | v => .error (.refused (.badAccuracy v))

def checkLocation (lat lng accuracy : Value) : Except Failure (Binary64 × Binary64 × Nat) := do
  let accuracy ← checkAccuracy accuracy
  let lat ← coordinate "lat" lat
  let lng ← coordinate "lng" lng
  return (lat, lng, accuracy)

def appendGps (s : Store) (supplies : Supplies) (lat lng accuracy : Value) : Outcome GpsEntry :=
  match checkLocation lat lng accuracy with
  | .error failure => .fail s supplies failure
  | .ok (lat, lng, accuracy) =>
    s.withRecord supplies (s.gpsLogs.map fun e => e.id.text) .gpsLogs
      (fun id now => ⟨id, lat, lng, accuracy, now⟩)
      (fun e => { s with gpsLogs := (e :: s.gpsLogs).take gpsCap }) (fun _ => [])

def photoIds (s : Store) : List String :=
  s.photoLogs.map fun e => e.id.text

def insertPhoto (s : Store) (supplies : Supplies) (uri : String) : Outcome PhotoEntry :=
  s.withRecord supplies s.photoIds .photoLogs (fun id now => ⟨id, uri, now⟩)
    (fun e => { s with photoLogs := (e :: s.photoLogs).take photoCap }) (fun _ => [])

def appendPhoto (s : Store) (supplies : Supplies) (uri : String) : Outcome PhotoEntry :=
  if Text.isBlankText uri then .refuse s supplies .blankUri else s.insertPhoto supplies uri

def commandIds (s : Store) : List String :=
  s.commandLogs.map fun e => e.id.text

def emailIds (s : Store) : List String :=
  s.emailQueue.map fun e => e.id.text

def kindOf? : Value → Option CommandKind
  | .text s => CommandKind.ofText? s
  | _ => none

def appendCommand (s : Store) (supplies : Supplies) (command result : String) (kind : Value) :
    Outcome CommandEntry :=
  match kindOf? kind with
  | none => .refuse s supplies (.unknownKind kind)
  | some kind =>
    s.withRecord supplies s.commandIds .commandLogs
      (fun id now => ⟨id, command, result, kind, now⟩)
      (fun e => { s with commandLogs := (e :: s.commandLogs).take commandCap }) (fun _ => [])

def clearCommands (s : Store) (supplies : Supplies) : Outcome Unit :=
  .commit { s with commandLogs := [] } supplies .commandLogs () []

def clearGps (s : Store) (supplies : Supplies) : Outcome Unit :=
  .commit { s with gpsLogs := [] } supplies .gpsLogs () []

def enqueueEmail (s : Store) (supplies : Supplies) (subject body : String) : Outcome QueuedEmail :=
  s.withRecord supplies s.emailIds .emailQueue
    (fun id now => ⟨id, subject, body, now, false⟩)
    (fun e => { s with emailQueue := s.emailQueue ++ [e] }) (fun _ => [])

/-- The queue with the first mail of that identifier marked as sent, and that mail. -/
def markSent? (id : String) : List QueuedEmail → Option (QueuedEmail × List QueuedEmail)
  | [] => none
  | e :: rest =>
    if e.id.text = id then
      let e := { e with sent := true }
      some (e, e :: rest)
    else (markSent? id rest).map fun (found, rest) => (found, e :: rest)

def markEmailSent (s : Store) (supplies : Supplies) (id : String) : Outcome QueuedEmail :=
  match markSent? id s.emailQueue with
  | none => .refuse s supplies (.emailNotFound id)
  | some (e, queue) => .commit { s with emailQueue := queue } supplies .emailQueue e []

def setEmailAddress (s : Store) (supplies : Supplies) (address : String) : Outcome Unit :=
  .commit { s with emailAddress := address } supplies .emailAddress () []

/-- Records connectivity, which is not stored. -/
def setOnline (s : Store) (supplies : Supplies) (online : Bool) : Outcome Unit :=
  .unchanged { s with isOnline := online } supplies ()

end Store

inductive Operation where
  | addFeature (name description category : String)
  | removeFeature (id : String)
  | toggleFeature (id : String)
  | setFeatureEnabled (id : String) (enabled : Bool)
  | appendGps (lat lng accuracy : Value)
  | appendPhoto (uri : String)
  | appendCommand (command result : String) (kind : Value)
  | clearCommands
  | clearGps
  | enqueueEmail (subject body : String)
  | markEmailSent (id : String)
  | setEmailAddress (address : String)
  | setOnline (online : Bool)
  deriving Repr

inductive Produced where
  | nothing
  | feature (f : Feature)
  | gps (e : GpsEntry)
  | photo (e : PhotoEntry)
  | command (e : CommandEntry)
  | email (e : QueuedEmail)
  deriving DecidableEq, Repr

namespace Produced

def ofUnit : Unit → Produced := fun _ => .nothing

def ofFeature? : Option Feature → Produced
  | some f => .feature f
  | none => .nothing

def toValue : Produced → Value
  | .nothing => .null
  | .feature f => f.toValue
  | .gps e => e.toValue
  | .photo e => e.toValue
  | .command e => e.toValue
  | .email e => e.toValue

end Produced

def Store.perform (s : Store) (supplies : Supplies) : Operation → Outcome Produced
  | .addFeature name description category =>
    (s.addFeature supplies name description category).map .feature
  | .removeFeature id => (s.removeFeature supplies id).map Produced.ofFeature?
  | .toggleFeature id => (s.toggleFeature supplies id).map .feature
  | .setFeatureEnabled id enabled => (s.setFeatureEnabled supplies id enabled).map .feature
  | .appendGps lat lng accuracy => (s.appendGps supplies lat lng accuracy).map .gps
  | .appendPhoto uri => (s.appendPhoto supplies uri).map .photo
  | .appendCommand command result kind =>
    (s.appendCommand supplies command result kind).map .command
  | .clearCommands => (s.clearCommands supplies).map Produced.ofUnit
  | .clearGps => (s.clearGps supplies).map Produced.ofUnit
  | .enqueueEmail subject body => (s.enqueueEmail supplies subject body).map .email
  | .markEmailSent id => (s.markEmailSent supplies id).map .email
  | .setEmailAddress address => (s.setEmailAddress supplies address).map Produced.ofUnit
  | .setOnline online => (s.setOnline supplies online).map Produced.ofUnit

end ControlPanel
