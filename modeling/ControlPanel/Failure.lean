import ControlPanel.Record.Checked
import ControlPanel.Text.Blank
import ControlPanel.Value

/-!
# Failures

An operation is refused for a reason of its own, or fails because a value that a host gives for a
number or a text is none, or because the clock has come to the end of its calendar.
-/
namespace ControlPanel

inductive NumberFault where
  | notANumber (value : Value)
  | notNumeric (kind : String)
  | tooLarge
  deriving BEq, Repr

namespace NumberFault

def message : NumberFault → String
  | .notANumber value => "could not convert string to float: " ++ value.display
  | .notNumeric kind =>
    "float() argument must be a string or a real number, not '" ++ kind ++ "'"
  | .tooLarge => "int too large to convert to float"

end NumberFault

/-- The double that a host's value stands for; texts and ASCII bytes are read. -/
def Value.toReal : Value → Except NumberFault Binary64
  | .real x => .ok x
  | .int n =>
    match Binary64.ofInt? n with
    | some x => .ok x
    | none => .error .tooLarge
  | .bool b => .ok (.ofNat b.toNat)
  | .text s =>
    match Binary64.readTyped? s with
    | some x => .ok x
    | none => .error (.notANumber (.text s))
  | .bytes b =>
    match String.fromUTF8? ⟨b.toArray⟩, b.all (· < 128) with
    | some s, true =>
      match Binary64.readTyped? s with
      | some x => .ok x
      | none => .error (.notANumber (.bytes b))
    | _, _ => .error (.notANumber (.bytes b))
  | v => .error (.notNumeric v.kindName)

def Value.isBlank? : Value → Option Bool
  | .text s => some (Text.isBlankText s)
  | .bytes b => some (Text.trimBytes b).isEmpty
  | _ => none

inductive Refusal where
  | blankFeature
  | blankUri
  | notFinite (name : String) (value : Value)
  | badAccuracy (value : Value)
  | unknownKind (value : Value)
  | noAddress
  | usage (text : String)
  | featureNotFound (ref : String)
  | emailNotFound (ref : String)
  | unknownCommand (verb : String)
  | idsExhausted
  | noMailProgram
  deriving BEq, Repr

inductive RefusalClass where
  | validation
  | notFound
  | unknownCommand
  | other
  deriving DecidableEq, Repr

def RefusalClass.name : RefusalClass → String
  | .validation => "ValidationError"
  | .notFound => "NotFoundError"
  | .unknownCommand => "UnknownCommandError"
  | .other => "RubelError"

def idAttempts : Nat := 16

namespace Refusal

def message : Refusal → String
  | .blankFeature => "Name and description are required."
  | .blankUri => "Photo uri is required."
  | .notFinite name value => name ++ " must be a finite number, got " ++ value.display
  | .badAccuracy value => "accuracy must be a non-negative integer, got " ++ value.display
  | .unknownKind value => "Unknown command log kind: " ++ value.display
  | .noAddress => "No email configured. Set it in Settings first."
  | .usage text => "Usage: " ++ text
  | .featureNotFound ref => "Feature not found: " ++ ref
  | .emailNotFound ref => "Email queue item not found: " ++ ref
  | .unknownCommand verb =>
    "Unknown command: '" ++ verb ++ "'. Type 'help' for available commands."
  | .idsExhausted =>
    "Could not allocate a unique id after " ++ toString idAttempts ++ " attempts"
  | .noMailProgram => "No mail client available to open the sync report"

def kind : Refusal → RefusalClass
  | .featureNotFound _ => .notFound
  | .emailNotFound _ => .notFound
  | .unknownCommand _ => .unknownCommand
  | .idsExhausted => .other
  | .noMailProgram => .other
  | _ => .validation

end Refusal

inductive Failure where
  | refused (reason : Refusal)
  | number (fault : NumberFault)
  /-- A value of this kind stands where a text is trimmed. -/
  | notTrimmable (kind : String)
  /-- Something else than a text or bytes stands in a URL. -/
  | notEncodable
  /-- A value of this kind stands for an identifier. -/
  | notComparable (kind : String)
  /-- The fields of a new record are wrong. -/
  | wrongFields (errors : List FieldError)
  | calendarEnded
  deriving BEq, Repr

namespace Failure

def message : Failure → String
  | .refused reason => reason.message
  | .number fault => fault.message
  | .notTrimmable kind => "'" ++ kind ++ "' object has no attribute 'strip'"
  | .notEncodable => "quote_from_bytes() expected bytes"
  | .notComparable kind => "unhashable type: '" ++ kind ++ "'"
  | .wrongFields errors => toString errors.length ++ " wrong field(s)"
  | .calendarEnded => "date value out of range"

end Failure

end ControlPanel
