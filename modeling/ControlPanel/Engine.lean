import ControlPanel.Capture
import ControlPanel.Command.Interpreter
import ControlPanel.Composer
import ControlPanel.Storage
import ControlPanel.Store.Request

/-!
# The engine

The engine keeps a store and its medium in step: it loads the store once, writes every change
through, and records every command it runs.
-/
namespace ControlPanel

structure Engine (μ : Type) where
  platform : Value
  store : Store
  supplies : Supplies
  writer : Writer μ
  loaded : Bool

inductive EngineFault where
  | failed (failure : Failure)
  | unreadable (fault : Storage.LoadFault)

def EngineFault.message : EngineFault → String
  | .failed failure => failure.message
  | .unreadable fault => fault.message

namespace Engine

variable {μ : Type}

/-- An engine on a medium, with the features of a new panel or none. Nothing is loaded yet. -/
def create (medium : μ) (platform timeout : Value) (seeded : Bool) (supplies : Supplies) :
    Except Failure (Engine μ) × Supplies :=
  match Store.create seeded supplies with
  | (none, supplies) => (.error .calendarEnded, supplies)
  | (some store, supplies) =>
    (.ok ⟨platform, store, supplies, .create medium timeout, false⟩, supplies)

def noteAll (e : Engine μ) (notes : List Note) : Engine μ :=
  { e with writer := e.writer.noteAll notes }

def now (e : Engine μ) : Option ClockTime × Engine μ :=
  let (time?, supplies) := e.supplies.now
  (time?, { e with supplies := supplies })

def snapshot (e : Engine μ) : Option Snapshot × Engine μ :=
  let (s?, supplies) := e.store.snapshot e.supplies
  (s?, { e with supplies := supplies })

variable [Medium μ]

/-- Takes over what an operation on the store led to, writing its change through. -/
def apply {α : Type} (e : Engine μ) (o : Outcome α) : Except Failure α × Engine μ :=
  let writer := match o.change? with
    | some change => Storage.writeThrough e.writer change
    | none => e.writer
  (o.result, { e with store := o.store, supplies := o.supplies, writer := writer }.noteAll o.notes)

def perform (e : Engine μ) (op : Operation) : Except Failure Produced × Engine μ :=
  e.apply (e.store.perform e.supplies op)

def fulfil (e : Engine μ) (request : Request) : Except Failure Produced × Engine μ :=
  e.apply (e.store.fulfil e.supplies request)

/-- Interprets a line on a snapshot. The line is not recorded. -/
def interpret (e : Engine μ) (line : CommandLine) (s : Snapshot) :
    Except Failure Reply × Engine μ :=
  e.apply (Interpreter.interpret e.platform line s e.store e.supplies)

def run (e : Engine μ) (line : CommandLine) (command : Value) : Except Failure Reply × Engine μ :=
  match e.snapshot with
  | (none, e) => (.error .calendarEnded, e)
  | (some s, e) =>
    match e.interpret line s with
    | (.error failure, e) => (.error failure, e)
    | (.ok reply, e) =>
      match e.fulfil (.appendCommand command (.text reply.message) (.text reply.kind.text)) with
      | (.ok _, e) => (.ok reply, e)
      | (.error failure, e) => (.error failure, e)

def execute (e : Engine μ) (raw : String) : Except Failure Reply × Engine μ :=
  let command := Text.trim raw
  e.run (.parse command) (.text command)

/-- Runs a command that a host hands over unchecked. -/
def executeValue (e : Engine μ) : Value → Except Failure Reply × Engine μ
  | .text raw => e.execute raw
  | .bytes raw =>
    let command := Text.trimBytes raw
    e.run (.ofBytes command) (.bytes command)
  | raw => (.error (.notTrimmable raw.kindName), e)

def restore (e : Engine μ) (saved : SavedState) : Engine μ :=
  let store := e.store.restore saved
  { e with store := store }.noteAll [store.restoreNote]

def load (e : Engine μ) : Except Storage.LoadFault Unit × Engine μ :=
  match Storage.load e.writer.medium with
  | .ok loaded => (.ok (), (e.noteAll loaded.notes).restore loaded.state)
  | .error fault => (.error fault, e.noteAll (Storage.notesBefore e.writer.medium Collection.all))

/-- Loads the store if that has not been done, and starts writing in the background. -/
def start (e : Engine μ) : Except Storage.LoadFault Unit × Engine μ :=
  if e.loaded then (.ok (), { e with writer := e.writer.start })
  else
    match e.load with
    | (.error fault, e) => (.error fault, e)
    | (.ok (), e) => (.ok (), { e with loaded := true, writer := e.writer.start })

def flush (e : Engine μ) : Engine μ :=
  { e with writer := e.writer.settle }

def close (e : Engine μ) : Engine μ :=
  { e with writer := e.writer.stop .null }

def within (e : Engine μ) (raw : Value) : Except EngineFault Reply × Engine μ :=
  match e.start with
  | (.error fault, e) => (.error (.unreadable fault), e)
  | (.ok (), e) =>
    match e.executeValue raw with
    | (.ok reply, e) => (.ok reply, e.close)
    | (.error failure, e) => (.error (.failed failure), e.close)

/-- A new engine on the medium of a closed one, with what is left of its supplies. If it cannot be made, the closed one
remains. -/
def restart (e : Engine μ) (timeout : Value) (seeded : Bool) : Except Failure Unit × Engine μ :=
  let e := e.close
  match create e.writer.medium e.platform timeout seeded e.supplies with
  | (.error failure, supplies) => (.error failure, { e with supplies := supplies })
  | (.ok fresh, _) =>
    (.ok (), { fresh with writer :=
      { fresh.writer with journal := e.writer.journal, begun := e.writer.begun } })

def handedNote : Note := .debug .engine "Sync report handed to composer"

def composeReport (e : Engine μ) (composer : Composer) :
    Except Failure Unit × List Handover × Engine μ :=
  match e.snapshot with
  | (none, e) => (.error .calendarEnded, [], e)
  | (some s, e) =>
    if Text.isBlankText s.emailAddress then (.error (.refused .noAddress), [], e)
    else
      match e.now with
      | (none, e) => (.error .calendarEnded, [], e)
      | (some now, e) =>
        let (result, handed, notes) := composer.handOver s.emailAddress (Mail.syncReport s now)
        (result.mapError .refused, handed,
          e.noteAll (notes ++ if result.isOk then [handedNote] else []))

end Engine

end ControlPanel
