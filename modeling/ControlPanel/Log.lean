/-!
# Log lines

Lines that tell what the parts of the panel do. Personal data is redacted before it gets here.
-/
namespace ControlPanel

inductive Level where
  | debug
  | warning
  deriving DecidableEq, Repr

inductive Source where
  | store
  | interpreter
  | capture
  | storage
  | writer
  | mail
  | engine
  deriving DecidableEq, Repr

structure Note where
  level : Level
  source : Source
  text : String
  deriving DecidableEq, Repr

namespace Note

def debug (source : Source) (text : String) : Note := ⟨.debug, source, text⟩

def warning (source : Source) (text : String) : Note := ⟨.warning, source, text⟩

end Note

end ControlPanel
