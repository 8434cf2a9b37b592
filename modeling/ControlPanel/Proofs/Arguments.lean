import ControlPanel.Console.Options

/-!
# Commands behind options

Arguments that begin with no dash are commands. Put behind arguments that ask for a conversation, they
are what the console is asked to run instead, with the same options.
-/
namespace ControlPanel.Console

namespace Argument

variable {commands : List String}

end Argument

namespace Options

open Argument

variable {o o' : Options} {placed surplus : Bool} {commands : List String} {fuel : Nat}
  {arguments : List Argument}

variable {s : Switch} {attachment : Attachment} {rest : List Argument} {value : String}

end Options

end ControlPanel.Console
