import ControlPanel.Capture
import ControlPanel.Settings

/-!
# Location tracking

A tracker polls a sensor: one sample at once when it is started, then one after every interval
until it is stopped. Stopping may give up waiting for a poller that is still taking a sample. All
pollers look at one stop signal.
-/
namespace ControlPanel

inductive Poller where
  | sampling
  | waiting
  deriving DecidableEq, Repr

structure Tracker where
  stopSignal : Bool
  /-- The pollers that have not ended, by their numbers. -/
  pollers : List (Nat × Poller)
  /-- The poller that stopping would wait for. -/
  current? : Option Nat
  /-- Whether stopping waits for it. -/
  stopping : Bool
  started : Nat
  deriving DecidableEq, Repr

namespace Tracker

inductive Event where
  | start
  | stop
  /-- Stopping is over: the poller has ended, or the time to wait for it has run out. -/
  | stopped
  | sampled (poller : Nat)
  | failed (poller : Nat)
  | wake (poller : Nat)
  deriving DecidableEq, Repr

def initial : Tracker := ⟨false, [], none, false, 0⟩

def isAlive (t : Tracker) (poller : Nat) : Bool :=
  t.pollers.any fun p => p.1 = poller

def isRunning (t : Tracker) : Bool :=
  match t.current? with
  | some poller => t.isAlive poller
  | none => false

def remove (t : Tracker) (poller : Nat) : Tracker :=
  { t with pollers := t.pollers.filter fun p => p.1 ≠ poller }

def set (t : Tracker) (poller : Nat) (phase : Poller) : Tracker :=
  { t with pollers := t.pollers.map fun p => if p.1 = poller then (poller, phase) else p }

/-- A new poller, for which the stop signal is taken back. -/
def launch (t : Tracker) : Tracker :=
  { stopSignal := false, pollers := t.pollers ++ [(t.started, .sampling)],
    current? := some t.started, stopping := false, started := t.started + 1 }

/-- The stop signal, at which the pollers that wait for their next sample end. -/
def signal (t : Tracker) : Tracker :=
  { t with stopSignal := true, stopping := true, pollers := t.pollers.filter fun p => p.2 = .sampling }

/-- The tracker after an event; `none` if it cannot happen. Starting and stopping are calls of one
host. A poller that has taken its sample waits or, once the signal is given, ends. -/
def next (t : Tracker) : Event → Option Tracker
  | .start =>
    if t.stopping then none
    else some (if t.isRunning then t else t.launch)
  | .stop =>
    if t.stopping then none
    else some (if t.current?.isSome then t.signal else t)
  | .stopped =>
    if t.stopping then some { t with current? := none, stopping := false } else none
  | .sampled poller =>
    if t.pollers.contains (poller, .sampling) then
      some (if t.stopSignal then t.remove poller else t.set poller .waiting)
    else none
  | .failed poller =>
    if t.pollers.contains (poller, .sampling) then some (t.remove poller) else none
  | .wake poller =>
    if t.pollers.contains (poller, .waiting) then some (t.set poller .sampling) else none

def run? (t : Tracker) (events : List Event) : Option Tracker :=
  events.foldlM next t

inductive IntervalFault where
  | notPositive (interval : Value)
  | notComparable (fault : Settings.Fault)

def IntervalFault.message : IntervalFault → String
  | .notPositive interval =>
    if Settings.isShowable interval then "interval must be positive, got " ++ interval.display
    else Settings.Fault.tooManyDigits.message
  | .notComparable fault => fault.message

def checkInterval (interval : Value) : Except IntervalFault Unit :=
  match Settings.isNotPositive interval with
  | .ok true => .error (.notPositive interval)
  | .ok false => .ok ()
  | .error fault => .error (.notComparable fault)

def startedNote (interval : Value) : Note :=
  .debug .capture ("Location tracking started interval=" ++ interval.display ++ "s")

def stoppedNote : Note := .debug .capture "Location tracking stopped"

end Tracker

end ControlPanel
