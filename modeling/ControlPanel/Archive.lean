import ControlPanel.Json.Reader
import ControlPanel.Json.Writer
import ControlPanel.Panel.Snapshot

/-!
# Stored texts

Every collection is stored as one text: a JSON array of records, or a JSON string for the address.
A stored address may also be plain text. A history is read as a whole or not at all.
-/
namespace ControlPanel.Archive

inductive ReadFault where
  | corrupt (errors : Nat)
  | notText
  | instant (cause : InstantFault)
  | tooManyDigits (count : Nat)
  | tooDeep (bracket : Json.Bracket)
  deriving DecidableEq, Repr

namespace ReadFault

/-- Whether the fault concerns its collection alone; others end the reading of all collections. -/
def isContained : ReadFault → Bool
  | .corrupt _ => true
  | .notText => true
  | _ => false

def message (c : Collection) : ReadFault → String
  | .corrupt errors => "Corrupt " ++ c.key ++ " record: " ++ toString errors ++ " error(s)"
  | .notText => c.key ++ " is not a string"
  | .instant cause => cause.message
  | .tooManyDigits count =>
    "Exceeds the limit (" ++ toString digitLimit ++
      " digits) for integer string conversion: value has " ++ toString count ++
      " digits; use sys.set_int_max_str_digits() to increase the limit"
  | .tooDeep bracket =>
    "maximum recursion depth exceeded while decoding a JSON " ++ bracket.name ++
      " from a unicode string"

end ReadFault

inductive WriteFault where
  | notText (kind : String)
  | notIterable (kind : String)
  | item (fault : Json.WriteFault)
  deriving DecidableEq, Repr

def WriteFault.message (c : Collection) : WriteFault → String
  | .notText kind => c.key ++ " must be a string, got " ++ kind
  | .notIterable kind =>
    "Could not serialize " ++ c.key ++ ": '" ++ kind ++ "' object is not iterable"
  | .item fault =>
    "Could not serialize " ++ c.key ++ ": Error serializing to JSON: " ++ fault.message

def encode (c : Collection) (content : c.Content) : String :=
  Json.write (c.toValue content)

def ofChecked {α : Type} : Checked α → Except ReadFault α
  | .ok a => .ok a
  | .invalid errors => .error (.corrupt errors.length)
  | .fault cause => .error (.instant cause)

def decodeAddress (text : String) : Except ReadFault String :=
  match Json.read .open text with
  | .ok (.text s) => .ok s
  | .ok _ => .error .notText
  | .error .malformed => .ok text
  | .error (.tooManyDigits count) => .error (.tooManyDigits count)
  | .error (.tooDeep bracket) => .error (.tooDeep bracket)

def decodeRecords (c : Collection) (text : String) : Except ReadFault c.Content :=
  match Json.read .strict text with
  | .ok v => ofChecked (c.read .stored v)
  | .error _ => .error (.corrupt 1)

def decode : (c : Collection) → String → Except ReadFault c.Content
  | .emailAddress, text => decodeAddress text
  | c, text => decodeRecords c text

/-- The parts of a value that can be gone through: items, names, characters or bytes. -/
def parts? : Value → Option (List Value)
  | .list items => some items
  | .record members => some (members.map fun (name, _) => .text name)
  | .text s => some (s.toList.map fun c => .text c.toString)
  | .bytes b => some (b.map fun byte => .int byte.toNat)
  | _ => none

def encodeValue (c : Collection) (v : Value) : Except WriteFault String :=
  match c, v with
  | .emailAddress, .text s => .ok (Json.quote s)
  | .emailAddress, v => .error (.notText v.kindName)
  | _, v =>
    match parts? v with
    | some items => (Json.write? (.list items)).mapError .item
    | none => .error (.notIterable v.kindName)

def restrict (c : Collection) : Value → Value
  | .record members => .record (members.filter fun (name, _) => c.fieldNames.contains name)
  | v => v

/-- The text for records of any kind in the place of a collection's own: only members that both kinds have are
written. -/
def encodeRecords (c : Collection) (records : List Value) : Except WriteFault String :=
  encodeValue c (.list (records.map (restrict c)))

end ControlPanel.Archive
