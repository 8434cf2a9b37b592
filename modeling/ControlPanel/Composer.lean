import ControlPanel.Failure
import ControlPanel.Log
import ControlPanel.Mail
import ControlPanel.Text.Blank

/-!
# Composers

A mail is handed to a composer, which opens a mail program with it. No mail program is asked to
write to a blank address.
-/
namespace ControlPanel

/-- A composer that only keeps what it gets, or a mail program that opens or does not. -/
inductive Composer where
  | recording
  | program (opens : Bool)
  deriving DecidableEq, Repr

/-- What reaches a composer: the fields of the mail, or the address that a mail program is opened with. -/
inductive Handover where
  | fields (address : String) (mail : Mail.Message)
  | url (text : String)
  deriving DecidableEq, Repr

namespace Composer

def openedNote (body : String) : Note :=
  .debug .mail ("Mail client opened for sync report (" ++ toString body.length ++ " chars)")

def compose (opens : Bool) (address : String) (mail : Mail.Message) :
    Except Refusal Unit × List String :=
  if Text.isBlankText address then (.error .noAddress, [])
  else
    (if opens then .ok () else .error .noMailProgram,
      [Mail.url address mail.subject mail.body])

def composeValues (opens : Bool) (address subject body : Value) :
    Except Failure Unit × List String :=
  match address.isBlank?, Mail.url? address subject body with
  | none, _ => (.error (.notTrimmable address.kindName), [])
  | some true, _ => (.error (.refused .noAddress), [])
  | some false, none => (.error .notEncodable, [])
  | some false, some url => (if opens then .ok () else .error (.refused .noMailProgram), [url])

def handOver (composer : Composer) (address : String) (mail : Mail.Message) :
    Except Refusal Unit × List Handover × List Note :=
  match composer with
  | .recording => (.ok (), [.fields address mail], [])
  | .program opens =>
    let (result, urls) := compose opens address mail
    (result, urls.map .url, if result.isOk then [openedNote mail.body] else [])

end Composer

end ControlPanel
