import ControlPanel.WriteQueue

/-!
# Writing behind a queue

A write queue at work on a medium. The worker and its executors run as far as they can: a write
under way ends unless the medium hangs, and one that is waited for is abandoned once the wait for
it has run out.
-/
namespace ControlPanel

/-- How the medium treats the writes of an executor: whether they hang, and which waits run out meanwhile. -/
structure Conditions where
  hanging : Bool
  expires : Value → Bool

def Conditions.normal : Conditions := ⟨false, fun _ => false⟩

structure Writer (μ : Type) where
  queue : WriteQueue
  medium : μ
  begun : List Write
  journal : List Note

namespace Writer

variable {μ : Type}

def create (medium : μ) (timeout : Value) : Writer μ :=
  ⟨.initial timeout, medium, [], []⟩

def note (w : Writer μ) (n : Note) : Writer μ :=
  { w with journal := n :: w.journal }

def noteAll (w : Writer μ) (notes : List Note) : Writer μ :=
  { w with journal := notes.reverse ++ w.journal }

/-- Lets an event happen if it can. -/
def happen (w : Writer μ) (e : WriteQueue.Event) : Writer μ :=
  match w.queue.next e with
  | some (queue, effect) =>
    ({ w with queue := queue, begun := effect.begun?.toList ++ w.begun }).noteAll effect.notes
  | none => w

variable [Medium μ]

def land (w : Writer μ) (write : Write) (ending : Option MediumFault → WriteQueue.Event) :
    Writer μ :=
  let (fault?, medium) := Medium.write w.medium write.key write.payload
  let notes := Medium.notes w.medium write.key write.payload
  ({ w with medium := medium }.noteAll notes).happen (ending fault?)

def advanceJobs? (c : Conditions) (w : Writer μ) (x : WriteQueue.Executor) : Option (Writer μ) :=
  match w.queue.jobsOf x with
  | ⟨_, false⟩ :: _ => some (w.happen (.begin x))
  | ⟨write, true⟩ :: _ => if c.hanging then none else some (w.land write (.finish x))
  | [] => none

def advanceWorker? (c : Conditions) (w : Writer μ) : Option (Writer μ) :=
  match w.queue.worker with
  | .absent => none
  | .holding _ => some (w.happen .hand)
  | .writing write => some (w.land write .endDirect)
  | .waiting _ limit => if c.hanging && c.expires limit then some (w.happen .abandon) else none
  | .retiring jobs => if jobs.isEmpty then some (w.happen .retired) else none
  | .ready =>
    if !w.queue.pending.isEmpty then some (w.happen .pop)
    else if !w.queue.stopping then none
    else if w.queue.executor?.isSome then some (w.happen .retire)
    else some (w.happen .exit)

def advance? (c : Conditions) (w : Writer μ) : Option (Writer μ) :=
  (w.advanceJobs? c .retired).or ((w.advanceJobs? c .current).or (w.advanceWorker? c))

def run (c : Conditions) : Nat → Writer μ → Writer μ
  | 0, w => w
  | fuel + 1, w =>
    match w.advance? c with
    | some w => run c fuel w
    | none => w

/-- More steps than the executors and the worker can make: four for a pending write, two for a job, and those of
the write in hand and of the worker's going. -/
def stepBound (w : Writer μ) : Nat :=
  4 * w.queue.pending.length + 2 * w.queue.jobs.length + 8

def settle (w : Writer μ) (c : Conditions := .normal) : Writer μ :=
  w.run c w.stepBound

/-- Submits a write; without a worker it is made at once. -/
def submit (w : Writer μ) (write : Write) : Writer μ :=
  let w := w.happen (.submit write)
  match w.queue.inline? with
  | some write => w.land write .endInline
  | none => w

def start (w : Writer μ) : Writer μ :=
  w.happen .start

def drainingNote (limit : Value) : Note :=
  .warning .writer ("Write queue worker still draining after " ++ limit.display ++ "s")

def stoppedNote : Note := .debug .writer "Write queue stopped"

def stop (w : Writer μ) (limit : Value) (c : Conditions := .normal) : Writer μ :=
  if w.queue.isRunning then
    let w := (w.happen .stop).settle c
    w.note (if w.queue.isRunning then drainingNote limit else stoppedNote)
  else w

end Writer

end ControlPanel
