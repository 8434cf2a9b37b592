import ControlPanel.Store.Operation

/-!
# Requests

A request is an operation that a host asks for with values that nobody has checked. Texts may come
as their bytes. A value of another kind matches no identifier, and makes a record wrong; that is
noticed only when the record is made, so an identifier and the time have been used up by then.
Nothing checks the address to report to, so only a text or the bytes of one may be given for it.
-/
namespace ControlPanel

/-- A text, or the bytes of one. -/
structure GivenAddress where
  value : Value
  text : String
  spells : Field.text value = .ok text
  deriving Repr

namespace GivenAddress

def ofText (s : String) : GivenAddress := ⟨.text s, s, rfl⟩

def ofValue? (v : Value) : Option GivenAddress :=
  match spells : Field.text v with
  | .ok s => some ⟨v, s, spells⟩
  | _ => none

def bytes? (a : GivenAddress) : Option (List UInt8) :=
  match a.value with
  | .bytes b => some b
  | _ => none

end GivenAddress

inductive Request where
  | addFeature (name description category : Value)
  | removeFeature (id : Value)
  | toggleFeature (id : Value)
  | setFeatureEnabled (id enabled : Value)
  | appendGps (lat lng accuracy : Value)
  | appendPhoto (uri : Value)
  | appendCommand (command result kind : Value)
  | clearCommands
  | clearGps
  | enqueueEmail (subject body : Value)
  | markEmailSent (id : Value)
  | setEmailAddress (address : GivenAddress)
  | setOnline (online : Value)
  deriving Repr

namespace Request

/-- A text without the blanks around it, or bytes without ASCII spaces around them. What stands for no counts as an
empty text. -/
def trim (v : Value) : Except Failure Value :=
  if !v.isTruthy then .ok (.text "")
  else
    match v with
    | .text s => .ok (.text (Text.trim s))
    | .bytes b => .ok (.bytes (Text.trimBytes b))
    | v => .error (.notTrimmable v.kindName)

def textField (name : String) (v : Value) : Checked String :=
  (Field.text v).within (.key name)

def featureFields (name description category : Value) :
    Except Failure (Checked ((String × String) × String)) := do
  let name ← trim name
  let description ← trim description
  if !name.isTruthy || !description.isTruthy then throw (.refused .blankFeature)
  let category ← trim category
  let category := if category.isTruthy then category else .text Feature.defaultCategory
  return ((textField "name" name).and (textField "description" description)).and
    (textField "category" category)

end Request

namespace Store

/-- Makes a record of fields that have been read, or fails where it would be made. -/
def withFields {α β : Type} (s : Store) (supplies : Supplies) (taken : List String)
    (fields : Checked β) (make : β → Outcome α) : Outcome α :=
  match fields.value? with
  | some b => make b
  | none =>
    match supplies.stamp taken with
    | (.error (.wrongFields errors), supplies) =>
      .fail s supplies (.wrongFields (errors ++ fields.errors))
    | (.error failure, supplies) => .fail s supplies failure
    | (.ok _, supplies) => .fail s supplies (.wrongFields fields.errors)

def requestFeature (s : Store) (supplies : Supplies) (name description category : Value) :
    Outcome Feature :=
  match Request.featureFields name description category with
  | .error failure => .fail s supplies failure
  | .ok fields =>
    s.withFields supplies s.takenFeatureIds fields fun ((name, description), category) =>
      s.insertFeature supplies name description category

def requestPhoto (s : Store) (supplies : Supplies) (uri : Value) : Outcome PhotoEntry :=
  match Request.trim uri with
  | .error failure => .fail s supplies failure
  | .ok trimmed =>
    if trimmed.isTruthy then
      s.withFields supplies s.photoIds (Request.textField "uri" uri) (s.insertPhoto supplies)
    else .refuse s supplies .blankUri

def requestCommand (s : Store) (supplies : Supplies) (command result kind : Value) :
    Outcome CommandEntry :=
  match kindOf? kind with
  | none => .refuse s supplies (.unknownKind kind)
  | some _ =>
    s.withFields supplies s.commandIds
      ((Request.textField "command" command).and (Request.textField "result" result))
      fun (command, result) => s.appendCommand supplies command result kind

def requestEmail (s : Store) (supplies : Supplies) (subject body : Value) : Outcome QueuedEmail :=
  s.withFields supplies s.emailIds
    ((Request.textField "subject" subject).and (Request.textField "body" body))
    fun (subject, body) => s.enqueueEmail supplies subject body

def requestAddress (s : Store) (supplies : Supplies) (address : GivenAddress) : Outcome Unit :=
  let o := s.setEmailAddress supplies address.text
  { o with change? := o.change?.map fun change => { change with bytes? := address.bytes? } }

def fulfil (s : Store) (supplies : Supplies) : Request → Outcome Produced
  | .addFeature name description category =>
    (s.requestFeature supplies name description category).map .feature
  | .removeFeature (.text id) => s.perform supplies (.removeFeature id)
  | .removeFeature _ => .unchanged s supplies .nothing
  | .toggleFeature (.text id) => s.perform supplies (.toggleFeature id)
  | .toggleFeature id => .refuse s supplies (.featureNotFound id.display)
  | .setFeatureEnabled (.text id) enabled =>
    s.perform supplies (.setFeatureEnabled id enabled.isTruthy)
  | .setFeatureEnabled id _ => .refuse s supplies (.featureNotFound id.display)
  | .appendGps lat lng accuracy => s.perform supplies (.appendGps lat lng accuracy)
  | .appendPhoto uri => (s.requestPhoto supplies uri).map .photo
  | .appendCommand command result kind =>
    (s.requestCommand supplies command result kind).map .command
  | .clearCommands => s.perform supplies .clearCommands
  | .clearGps => s.perform supplies .clearGps
  | .enqueueEmail subject body => (s.requestEmail supplies subject body).map .email
  | .markEmailSent (.text id) => s.perform supplies (.markEmailSent id)
  | .markEmailSent id => .refuse s supplies (.emailNotFound id.display)
  | .setEmailAddress address => (s.requestAddress supplies address).map Produced.ofUnit
  | .setOnline online => s.perform supplies (.setOnline online.isTruthy)

end Store

end ControlPanel
