import ControlPanel.Log
import ControlPanel.Medium
import ControlPanel.Value

/-!
# The write queue

Writes to a medium are queued behind a worker. Only the newest text of a key is ever pending. The
worker hands one write after the other to an executor, which makes them one at a time, and waits
for each a bounded time; a write that takes longer is abandoned, which means counted as failed, but
it keeps its place in the executor and still lands before any later one. Without a worker a write
is made inline by whoever submits it.

A stopping worker first drains what is pending, then gives up its executor and waits for what is
left in it, and only then goes away. Meanwhile a start may bring a second executor. Submissions
come one at a time; everything else may happen at any moment.
-/
namespace ControlPanel

structure Write where
  key : String
  payload : String
  deriving DecidableEq, Repr

structure WriteError where
  key : String
  message : String
  deriving DecidableEq, Repr

structure Job where
  write : Write
  begun : Bool
  deriving DecidableEq, Repr

inductive Worker where
  | absent
  | ready
  /-- It has taken a write from the queue. -/
  | holding (w : Write)
  /-- It waits, up to a limit, for the last job of the executor. -/
  | waiting (w : Write) (limit : Value)
  /-- It makes a write itself, for want of an executor. -/
  | writing (w : Write)
  /-- It has given up an executor and waits for the jobs left in it. -/
  | retiring (jobs : List Job)
  deriving BEq, Repr

structure WriteQueue where
  /-- Seconds that a write may take. -/
  timeout : Value
  pending : List Write
  worker : Worker
  stopping : Bool
  /-- The jobs of the executor to hand writes to, if there is one. -/
  executor? : Option (List Job)
  /-- A write that is being made by its submitter. -/
  inline? : Option Write
  completed : Nat
  failed : Nat
  lastError? : Option WriteError
  deriving BEq, Repr

namespace WriteQueue

/-- The executor that writes are handed to, or the one that the worker has given up. -/
inductive Executor where
  | current
  | retired
  deriving DecidableEq, Repr

inductive Event where
  | submit (w : Write)
  | endInline (fault? : Option MediumFault)
  | start
  | stop
  | pop
  | hand
  | begin (x : Executor)
  | finish (x : Executor) (fault? : Option MediumFault)
  | endDirect (fault? : Option MediumFault)
  | abandon
  | retire
  | retired
  | exit
  deriving DecidableEq, Repr

/-- What an event shows: a write that begins on the medium, and lines for the log. -/
structure Effect where
  begun? : Option Write
  notes : List Note
  deriving DecidableEq, Repr

namespace Effect

def none : Effect := ⟨.none, []⟩

def begins (w : Write) : Effect := ⟨some w, []⟩

def noting (note : Note) : Effect := ⟨.none, [note]⟩

end Effect

def initial (timeout : Value) : WriteQueue :=
  ⟨timeout, [], .absent, false, none, none, 0, 0, none⟩

def isRunning (q : WriteQueue) : Bool :=
  match q.worker with
  | .absent => false
  | _ => true

def isInFlight (q : WriteQueue) : Bool :=
  match q.worker with
  | .holding _ => true
  | .waiting _ _ => true
  | .writing _ => true
  | _ => false

/-- Whether nothing is left for the worker to write. -/
def isIdle (q : WriteQueue) : Bool :=
  !q.isRunning || (q.pending.isEmpty && !q.isInFlight)

def jobsOf (q : WriteQueue) : Executor → List Job
  | .current => q.executor?.getD []
  | .retired =>
    match q.worker with
    | .retiring jobs => jobs
    | _ => []

def setJobs (q : WriteQueue) (jobs : List Job) : Executor → WriteQueue
  | .current => { q with executor? := some jobs }
  | .retired => { q with worker := .retiring jobs }

def jobs (q : WriteQueue) : List Job :=
  q.jobsOf .retired ++ q.jobsOf .current

def pendingKeys (q : WriteQueue) : List String :=
  q.pending.map Write.key

/-- The pending writes after one more: it replaces that of the same key and goes to the end. -/
def enqueue (w : Write) (pending : List Write) : List Write :=
  pending.filter (fun old => old.key ≠ w.key) ++ [w]

def persistedNote (w : Write) : Note :=
  .debug .writer ("Persisted key=" ++ w.key ++ " chars=" ++ toString w.payload.length)

def failedNote (message : String) : Note :=
  .warning .writer ("Persistence write failed: " ++ message)

def abandonedMessage (q : WriteQueue) (w : Write) : String :=
  "Write of " ++ w.key ++ " abandoned after " ++ q.timeout.display ++ "s"

def failedMessage (w : Write) : MediumFault → String
  | .known message => message
  | fault => "Write of " ++ w.key ++ " failed: " ++ fault.text

def recordFailure (q : WriteQueue) (w : Write) (message : String) : WriteQueue × Effect :=
  ({ q with failed := q.failed + 1, lastError? := some ⟨w.key, message⟩ },
    .noting (failedNote message))

def recordDirect (q : WriteQueue) (w : Write) : Option MediumFault → WriteQueue × Effect
  | none => ({ q with completed := q.completed + 1 }, .noting (persistedNote w))
  | some fault => q.recordFailure w (failedMessage w fault)

/-- Records what an awaited job came to; one that failed for slowness counts as abandoned. -/
def recordJob (q : WriteQueue) (w : Write) : Option MediumFault → WriteQueue × Effect
  | some (.timedOut _) => q.recordFailure w (q.abandonedMessage w)
  | fault? => q.recordDirect w fault?

def startedNote (q : WriteQueue) : Note :=
  .debug .writer ("Write queue started timeout=" ++ q.timeout.display ++ "s")

/-- The queue after an event and what the event shows; `none` if it cannot happen. -/
def next (q : WriteQueue) : Event → Option (WriteQueue × Effect)
  | .submit w =>
    if q.inline?.isSome then none
    else if q.isRunning then some ({ q with pending := enqueue w q.pending }, .none)
    else some ({ q with inline? := some w }, .begins w)
  | .endInline fault? =>
    q.inline?.map fun w => { q with inline? := none }.recordDirect w fault?
  | .start =>
    let q' := { q with stopping := false, executor? := some (q.jobsOf .current) }
    if q.isRunning then some (q', .none)
    else some ({ q' with worker := .ready }, .noting q.startedNote)
  | .stop => some (if q.isRunning then { q with stopping := true } else q, .none)
  | .pop =>
    match q.worker, q.pending with
    | .ready, w :: rest => some ({ q with worker := .holding w, pending := rest }, .none)
    | _, _ => none
  | .hand =>
    match q.worker, q.executor? with
    | .holding w, some jobs =>
      some ({ q with worker := .waiting w q.timeout, executor? := some (jobs ++ [⟨w, false⟩]) }, .none)
    | .holding w, none => some ({ q with worker := .writing w }, .begins w)
    | _, _ => none
  | .begin x =>
    match q.jobsOf x with
    | ⟨w, false⟩ :: rest => some (q.setJobs (⟨w, true⟩ :: rest) x, .begins w)
    | _ => none
  | .finish x fault? =>
    match q.jobsOf x with
    | ⟨_, true⟩ :: rest =>
      let q := q.setJobs rest x
      match q.worker, rest with
      | .waiting w _, [] => some ({ q with worker := .ready }.recordJob w fault?)
      | _, _ => some (q, .none)
    | _ => none
  | .endDirect fault? =>
    match q.worker with
    | .writing w => some ({ q with worker := .ready }.recordDirect w fault?)
    | _ => none
  | .abandon =>
    match q.worker with
    | .waiting w _ =>
      some ({ q with worker := .ready }.recordFailure w (q.abandonedMessage w))
    | _ => none
  | .retire =>
    match q.worker, q.pending, q.executor? with
    | .ready, [], some jobs =>
      if q.stopping then some ({ q with worker := .retiring jobs, executor? := none }, .none)
      else none
    | _, _, _ => none
  | .retired =>
    match q.worker with
    | .retiring [] => some ({ q with worker := .ready }, .none)
    | _ => none
  | .exit =>
    match q.worker, q.pending, q.executor? with
    | .ready, [], none => if q.stopping then some ({ q with worker := .absent }, .none) else none
    | _, _, _ => none

end WriteQueue

end ControlPanel
