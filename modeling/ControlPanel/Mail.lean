import ControlPanel.Panel.Snapshot
import ControlPanel.Text.Hex

/-!
# Mail

The subject and body of the mails that the panel builds, and the address by which a mail program
is opened with them.
-/
namespace ControlPanel.Mail

structure Message where
  subject : String
  body : String
  deriving DecidableEq, Repr

def appName : String := "Rubel Engine"

def appVersion : String := "1.0.0"

def subject : String := "Rubel Engine Data Sync"

def enabledNames (s : Snapshot) : String :=
  ", ".intercalate (s.enabledFeatures.map Feature.name)

def syncRequest (s : Snapshot) (now : ClockTime) : Message :=
  ⟨subject, "Sync request at " ++ now.mailText ++ "\nFeatures: " ++ enabledNames s⟩

def syncReport (s : Snapshot) (now : ClockTime) : Message :=
  ⟨subject, appName ++ " Sync Report\nDate: " ++ now.mailText ++
    "\n\nActive Features: " ++ enabledNames s ++
    "\nTotal Features: " ++ toString s.features.length ++
    "\nQueue Items: " ++ toString s.emailQueue.length⟩

/-- Characters that stand for themselves in every part of a mail address URL. -/
def isUnreserved (c : Char) : Bool :=
  c.toNat < 128 && (c.isAlphanum || c = '_' || c = '.' || c = '-' || c = '~')

def percentByte (b : UInt8) : List Char :=
  ['%', Text.upperHexDigit (b.toNat / 16), Text.upperHexDigit (b.toNat % 16)]

/-- Writes the bytes of characters that are not kept as percent signs with two digits. -/
def percentEncode (keep : Char → Bool) (s : String) : List Char :=
  s.toList.flatMap fun c =>
    if keep c then [c] else (String.utf8EncodeChar c).flatMap percentByte

def isAddressChar (c : Char) : Bool :=
  isUnreserved c || c = '@'

def urlOf (address subject body : List Char) : String :=
  String.ofList ("mailto:".toList ++ address ++ "?subject=".toList ++ subject ++
    "&body=".toList ++ body)

def url (address subject body : String) : String :=
  urlOf (percentEncode isAddressChar address) (percentEncode isUnreserved subject)
    (percentEncode isUnreserved body)

def encodePart? (keep : Char → Bool) : Value → Option (List Char)
  | .text s => some (percentEncode keep s)
  | .bytes bytes => some (bytes.flatMap fun b =>
      if keep (Char.ofNat b.toNat) then [Char.ofNat b.toNat] else percentByte b)
  | _ => none

def url? (address subject body : Value) : Option String := do
  return urlOf (← encodePart? isAddressChar address) (← encodePart? isUnreserved subject)
    (← encodePart? isUnreserved body)

end ControlPanel.Mail
