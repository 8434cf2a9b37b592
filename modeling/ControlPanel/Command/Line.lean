import ControlPanel.Text.Blank
import ControlPanel.Text.Case
import ControlPanel.Text.Quoted

/-!
# Command lines

A command line is cut into words; the first one, in lower case, is the verb.
-/
namespace ControlPanel

inductive Verb where
  | help
  | list
  | enable
  | disable
  | add
  | remove
  | status
  | clearLogs
  | clearGps
  | syncEmail
  | version
  deriving DecidableEq, Repr

namespace Verb

def all : List Verb :=
  [help, list, enable, disable, add, remove, status, clearLogs, clearGps, syncEmail, version]

def text : Verb → String
  | .help => "help"
  | .list => "list"
  | .enable => "enable"
  | .disable => "disable"
  | .add => "add"
  | .remove => "remove"
  | .status => "status"
  | .clearLogs => "clear-logs"
  | .clearGps => "clear-gps"
  | .syncEmail => "sync-email"
  | .version => "version"

def ofText? (s : String) : Option Verb :=
  all.find? fun v => v.text = s

end Verb

structure CommandLine where
  verb : String
  args : List String
  deriving DecidableEq, Repr

namespace CommandLine

def parse (raw : String) : CommandLine :=
  match Text.words raw with
  | [] => ⟨"", []⟩
  | verb :: args => ⟨Text.lower verb, args⟩

/-- A line that comes as bytes. Its words keep the form of bytes, so that its verb is none that is known. -/
def ofBytes (raw : List UInt8) : CommandLine :=
  match (raw.splitOnP Text.isSpaceByte).filter (!·.isEmpty) with
  | [] => ⟨"", []⟩
  | verb :: args => ⟨Text.quoteBytes (verb.map Text.lowerByte), args.map Text.quoteBytes⟩

def text (line : CommandLine) : String :=
  " ".intercalate line.args

def firstArg? (line : CommandLine) : Option String :=
  line.args.head?

end CommandLine

end ControlPanel
