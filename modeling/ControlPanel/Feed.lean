import ControlPanel.Calendar.Instant
import ControlPanel.Value

/-!
# Feeds

A feed hands out its items one after the other. The panel takes its identifiers and the time from
feeds, so that the same feeds lead to the same state.
-/
namespace ControlPanel

structure Feed (α : Type) where
  item : Nat → α
  /-- How many items have been taken. -/
  taken : Nat

namespace Feed

variable {α : Type}

def ofFunction (item : Nat → α) : Feed α := ⟨item, 0⟩

def next (f : Feed α) : α × Feed α :=
  (f.item f.taken, { f with taken := f.taken + 1 })

end Feed

/-- What the panel is supplied with. Identifiers come from a host unchecked; the clock shows nothing once its
calendar has ended. -/
structure Supplies where
  ids : Feed Value
  clock : Feed (Option ClockTime)

namespace Supplies

def now (s : Supplies) : Option ClockTime × Supplies :=
  let (time?, clock) := s.clock.next
  (time?, { s with clock := clock })

end Supplies

end ControlPanel
