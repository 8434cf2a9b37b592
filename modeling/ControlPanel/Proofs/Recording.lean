import ControlPanel.Engine
import ControlPanel.Proofs.Protocol

/-!
# The record of commands

An engine carries out a command first and records it afterwards, by a store operation of its own.
The entry comes in front of what the command left of the command log. If there is no identifier for
the entry, the command has been carried out all the same.
-/
namespace ControlPanel

theorem Effect.commandLogs {s s' : Store} {p p' : Supplies} {r : Request}
    {result : Except Failure Produced} {change? : Option Change}
    (h : Effect s p r result s' p' change?)
    (no_entry : ∀ command result kind, r ≠ .appendCommand command result kind)
    (not_cleared : r ≠ .clearCommands) : s'.commandLogs = s.commandLogs := by
  cases h with
  | edited _ edit =>
    cases edit with
    | appendCommand => exact absurd rfl (no_entry _ _ _)
    | clearCommands => exact absurd rfl not_cleared
    | _ => rfl
  | _ => rfl

theorem Snapshot.Asks.commandLogs {snapshot : Snapshot} {verb : Verb} {op : Operation} {s : Store}
    {p : Supplies} (asked : snapshot.Asks verb op) (other : verb ≠ .clearLogs) :
    (s.perform p op).store.commandLogs = s.commandLogs := by
  apply Effect.commandLogs (Store.isEffectOf_perform op)
  · cases asked <;> nofun
  · cases asked with
    | clearLogs => exact absurd rfl other
    | _ => nofun

/-- Only a command that clears the log touches it, and that command is accepted. -/
theorem Interpreter.interpret_commandLogs {platform : Value} {line : CommandLine}
    {snapshot : Snapshot} {s : Store} {p : Supplies} {reply : Reply}
    (replied : (interpret platform line snapshot s p).result = .ok reply) :
    (interpret platform line snapshot s p).store.commandLogs =
      if Verb.ofText? line.verb = some .clearLogs ∧ reply.success then [] else s.commandLogs := by
  by_cases clears : Verb.ofText? line.verb = some .clearLogs
  · have gives : (interpret platform line snapshot s p).Gives .none
        { s with commandLogs := [], changes := s.changes + 1 } :=
      gives_operate clears rfl rfl rfl
    obtain ⟨⟨message, result⟩, store⟩ := gives
    rw [replied] at result
    cases result
    rw [store, if_pos ⟨clears, rfl⟩]
  · rw [if_neg fun both => clears both.1]
    cases does_interpret platform line snapshot s p with
    | nothing store => rw [store]
    | operation asked _ _ _ _ store =>
      obtain ⟨verb, known, asked⟩ := asked
      rw [store]
      apply asked.commandLogs
      rintro rfl
      exact clears known

structure CommandEntry.Records (entry : CommandEntry) (command : String) (reply : Reply) :
    Prop where
  command : entry.command = command
  result : entry.result = reply.message
  kind : entry.kind = if reply.success then .success else .error

namespace Store

variable {s : Store} {p p' : Supplies} {command result : String} {kind : CommandKind}

theorem kindOf_text (kind : CommandKind) : kindOf? (.text kind.text) = some kind := by
  cases kind <;> decide

theorem fulfil_appendCommand_failed {failure : Failure}
    (failed : p.stamp s.commandIds = (.error failure, p')) :
    s.fulfil p (.appendCommand (.text command) (.text result) (.text kind.text)) =
      .fail s p' failure := by
  simp only [fulfil, requestCommand_text, appendCommand, kindOf_text, withRecord, failed]
  rfl

theorem fulfil_appendCommand_stamped {id : Id} {now : Instant}
    (stamped : p.stamp s.commandIds = (.ok (id, now), p')) :
    s.fulfil p (.appendCommand (.text command) (.text result) (.text kind.text)) =
      .commit { s with commandLogs :=
        ((⟨id, command, result, kind, now⟩ : CommandEntry) :: s.commandLogs).take commandCap } p'
        .commandLogs (.command ⟨id, command, result, kind, now⟩) [] := by
  simp only [fulfil, requestCommand_text, appendCommand, kindOf_text, withRecord, stamped]
  rfl

end Store

def Storage.takeOver {μ : Type} [Medium μ] (w : Writer μ) (change? : Option Change)
    (notes : List Note) : Writer μ :=
  (match change? with
    | some change => writeThrough w change
    | none => w).noteAll notes

namespace Engine

variable {μ : Type} {e : Engine μ} {raw : String} {i : Outcome Reply} {p : Supplies} {reply : Reply}
  {failure : Failure}

def Interprets (e : Engine μ) (raw : String) (i : Outcome Reply) : Prop :=
  ∃ snapshot p, e.store.snapshot e.supplies = (some snapshot, p) ∧
    i = Interpreter.interpret e.platform (.parse (Text.trim raw)) snapshot e.store p

theorem exists_interprets (regular : e.supplies.Regular) (raw : String) :
    ∃ i, e.Interprets raw i := by
  obtain ⟨now, p, shown⟩ := regular.now
  exact ⟨_, _, p, by simp only [Store.snapshot, shown]; rfl, rfl⟩

theorem Interprets.unique {j : Outcome Reply} (h : e.Interprets raw i) (h' : e.Interprets raw j) :
    i = j := by
  obtain ⟨snapshot, p, seen, outcome⟩ := h
  obtain ⟨snapshot', p', seen', outcome'⟩ := h'
  rw [seen] at seen'
  obtain ⟨rfl, rfl⟩ : snapshot = snapshot' ∧ p = p' := by simpa using seen'
  exact outcome.trans outcome'.symm

theorem Interprets.does (h : e.Interprets raw i) :
    ∃ asks p, e.supplies.Passes p ∧ i.Does asks e.store p := by
  obtain ⟨snapshot, p, seen, outcome⟩ := h
  rcases shown : e.supplies.now with ⟨now?, q⟩
  have passes := Supplies.passes_now shown
  simp only [Store.snapshot, shown, Prod.mk.injEq] at seen
  rw [seen.2] at passes
  rw [outcome]
  exact ⟨_, p, passes, Interpreter.does_interpret ..⟩

theorem Interprets.unanswered (h : e.Interprets raw i) (failed : i.result = .error failure) :
    i.store = e.store := by
  obtain ⟨asks, p, -, does⟩ := h.does
  refine (does.unaccepted ?_).1
  rintro ⟨reply, replied, -⟩
  rw [failed] at replied
  cases replied

theorem Interprets.regular (h : e.Interprets raw i) (regular : e.supplies.Regular) :
    (∃ reply, i.result = .ok reply) ∧ i.supplies.Regular := by
  obtain ⟨asks, p, passes, does⟩ := h.does
  have regular_then := passes.regular regular
  exact ⟨does.returns regular_then, does.passes.regular regular_then⟩

theorem Interprets.announces (h : e.Interprets raw i) :
    i.store = e.store ∧ i.change? = none ∨
      ∃ change, i.change? = some change ∧ Announces e.store i.store change := by
  obtain ⟨snapshot, p, -, outcome⟩ := h
  rw [outcome]
  exact Interpreter.still_or_announces ..

theorem Interprets.commandLogs (h : e.Interprets raw i) (replied : i.result = .ok reply) :
    i.store.commandLogs =
      if Verb.ofText? (CommandLine.parse (Text.trim raw)).verb = some .clearLogs ∧ reply.success
      then [] else e.store.commandLogs := by
  obtain ⟨snapshot, p, -, outcome⟩ := h
  rw [outcome] at replied ⊢
  exact Interpreter.interpret_commandLogs replied

section Recorded

variable [Medium μ]

def after {α : Type} (e : Engine μ) (o : Outcome α) : Engine μ :=
  { e with
    store := o.store
    supplies := o.supplies
    writer := Storage.takeOver e.writer o.change? o.notes }

theorem apply_eq {α : Type} (e : Engine μ) (o : Outcome α) : e.apply o = (o.result, e.after o) := by
  cases change : o.change? <;> simp only [apply, after, change] <;> rfl

theorem execute_untimed (untimed : e.store.snapshot e.supplies = (none, p)) :
    e.execute raw = (.error .calendarEnded, { e with supplies := p }) := by
  simp only [execute, run, Engine.snapshot, untimed]

/-- The entry is made in the store that the command has left. -/
theorem execute_interprets (h : e.Interprets raw i) :
    e.execute raw =
      match i.result with
      | .error failure => (.error failure, e.after i)
      | .ok reply =>
        match (e.after i).fulfil (.appendCommand (.text (Text.trim raw)) (.text reply.message)
            (.text reply.kind.text)) with
        | (.ok _, e') => (.ok reply, e')
        | (.error failure, e') => (.error failure, e') := by
  obtain ⟨snapshot, p, seen, outcome⟩ := h
  have interpreted : ({ e with supplies := p } : Engine μ).interpret (.parse (Text.trim raw))
      snapshot = (i.result, e.after i) := by
    rw [interpret, ← outcome, apply_eq]
    rfl
  simp only [execute, run, Engine.snapshot, seen, interpreted]
  cases i.result <;> rfl

theorem execute_failed (h : e.Interprets raw i) (failed : i.result = .error failure) :
    e.execute raw = (.error failure, e.after i) := by
  rw [execute_interprets h, failed]

/-- Without an identifier for its entry the command has been carried out all the same. -/
theorem execute_unrecorded (h : e.Interprets raw i) (replied : i.result = .ok reply)
    (failed : i.supplies.stamp i.store.commandIds = (.error failure, p)) :
    e.execute raw = (.error failure, { e.after i with supplies := p }) := by
  have entered : (e.after i).store.fulfil (e.after i).supplies
      (.appendCommand (.text (Text.trim raw)) (.text reply.message) (.text reply.kind.text)) =
        .fail i.store p failure := Store.fulfil_appendCommand_failed failed
  rw [execute_interprets h, replied]
  simp only [fulfil, apply_eq, entered]
  rfl

theorem execute_recorded {id : Id} {now : Instant} (h : e.Interprets raw i)
    (replied : i.result = .ok reply)
    (stamped : i.supplies.stamp i.store.commandIds = (.ok (id, now), p)) :
    let entry : CommandEntry := ⟨id, Text.trim raw, reply.message, reply.kind, now⟩
    let log := (entry :: i.store.commandLogs).take Store.commandCap
    e.execute raw = (.ok reply, { e with
      store := { i.store with commandLogs := log, changes := i.store.changes + 1 }
      supplies := p
      writer := Storage.takeOver (Storage.takeOver e.writer i.change? i.notes)
        (some ⟨i.store.changes + 1, .commandLogs, log, none⟩) [] }) := by
  intro entry log
  have entered : (e.after i).store.fulfil (e.after i).supplies
      (.appendCommand (.text (Text.trim raw)) (.text reply.message) (.text reply.kind.text)) =
        .commit { i.store with commandLogs := log } p .commandLogs (.command entry) [] :=
    Store.fulfil_appendCommand_stamped stamped
  rw [execute_interprets h, replied]
  simp only [fulfil, apply_eq, entered]
  rfl

/-- With identifiers that are texts and a clock that goes on, every command is answered. If there is
a free identifier for its entry, the entry becomes the newest of the log, of which 500 are kept.
Apart from the log, the store is as interpreting the command left it; the writer is told of what the
command changed, if anything, and then of the log. -/
theorem execute_records (raw : String) (regular : e.supplies.Regular) :
    ∃ i reply, e.Interprets raw i ∧ i.result = .ok reply ∧
      (i.store = e.store ∧ i.change? = none ∨
        ∃ change, i.change? = some change ∧ Announces e.store i.store change) ∧
      (i.supplies.HasFreeId i.store.commandIds → ∃ entry : CommandEntry,
        let clears := Verb.ofText? (CommandLine.parse (Text.trim raw)).verb = some .clearLogs
        let log :=
          (entry :: if clears ∧ reply.success then [] else e.store.commandLogs).take 500
        entry.Records (Text.trim raw) reply ∧ (e.execute raw).1 = .ok reply ∧
          (e.execute raw).2.store =
            { i.store with commandLogs := log, changes := i.store.changes + 1 } ∧
          (e.execute raw).2.writer =
            Storage.takeOver (Storage.takeOver e.writer i.change? i.notes)
              (some ⟨i.store.changes + 1, .commandLogs, log, none⟩) []) := by
  obtain ⟨i, interprets⟩ := exists_interprets regular raw
  obtain ⟨⟨reply, replied⟩, regular_then⟩ := interprets.regular regular
  refine ⟨i, reply, interprets, replied, interprets.announces, fun available => ?_⟩
  obtain ⟨id, now, q, stamped⟩ := regular_then.stamp_ok available
  refine ⟨⟨id, Text.trim raw, reply.message, reply.kind, now⟩, ⟨rfl, rfl, rfl⟩, ?_⟩
  rw [execute_recorded interprets replied stamped, interprets.commandLogs replied]
  exact ⟨rfl, rfl, rfl⟩

def noted : Engine MemoryMedium :=
  { platform := .null
    store := { Store.empty with
      commandLogs := [⟨⟨"log", by decide⟩, "help", "", .success, .ofUtc .first⟩] }
    supplies := .numbered
    writer := .create .empty .null
    loaded := true }

theorem noted_records_clearing :
    ∃ entry reply, entry.Records "Clear-Logs" reply ∧ (noted.execute " Clear-Logs ").1 = .ok reply ∧
      (noted.execute " Clear-Logs ").2.store.commandLogs = [entry] := by
  obtain ⟨i, reply, interprets, replied, -, records⟩ :=
    execute_records (e := noted) " Clear-Logs " Supplies.regular_numbered
  have trimmed : Text.trim " Clear-Logs " = "Clear-Logs" := by decide
  have outcome := interprets.unique ⟨_, _, rfl, rfl⟩
  have available : i.supplies.HasFreeId i.store.commandIds := by
    rw [outcome]
    exact ⟨0, by decide, "0", rfl, by decide, by decide⟩
  have accepted : reply = .accept "Command logs cleared." := by
    rw [outcome] at replied
    exact Except.ok.inj (replied.symm.trans rfl)
  have cleared : Verb.ofText? (CommandLine.parse (Text.trim " Clear-Logs ")).verb =
      some .clearLogs ∧ reply.success = true := by
    rw [accepted]
    decide
  obtain ⟨entry, recorded, returned, store, -⟩ := records available
  rw [if_pos cleared] at store
  rw [trimmed] at recorded
  exact ⟨entry, reply, recorded, returned, by rw [store]; rfl⟩

end Recorded

/-- A command has altered a collection, and its entry cannot be stamped. -/
def HalfDone (e : Engine μ) (raw : String) : Prop :=
  ∃ i, e.Interprets raw i ∧ (∃ reply, i.result = .ok reply) ∧
    (∃ c, i.store.content c ≠ e.store.content c) ∧
    ∃ failure p, i.supplies.stamp i.store.commandIds = (.error failure, p)

theorem Interprets.halfDone_iff (h : e.Interprets raw i) :
    e.HalfDone raw ↔ (∃ reply, i.result = .ok reply) ∧
      (∃ c, i.store.content c ≠ e.store.content c) ∧
      ∃ failure p, i.supplies.stamp i.store.commandIds = (.error failure, p) := by
  constructor
  · rintro ⟨j, other, half⟩
    rwa [h.unique other]
  · intro half
    exact ⟨i, h, half⟩

variable [Medium μ]

/-- A command is answered and recorded, or it fails and leaves every collection as it was. -/
def AllOrNothing (e : Engine μ) (raw : String) : Prop :=
  match e.execute raw with
  | (.ok reply, e') => ∃ entry older, e'.store.commandLogs = entry :: older ∧
      entry.Records (Text.trim raw) reply
  | (.error _, e') => ∀ c, e'.store.content c = e.store.content c

/-- Whatever the supplies, a command is all or nothing unless it is half done. -/
theorem allOrNothing_iff (e : Engine μ) (raw : String) : e.AllOrNothing raw ↔ ¬ e.HalfDone raw := by
  rcases seen : e.store.snapshot e.supplies with ⟨_ | snapshot, p⟩
  · have unseen : ¬ e.HalfDone raw := by
      rintro ⟨i, ⟨snapshot, q, taken, -⟩, -⟩
      rw [seen] at taken
      cases taken
    rw [AllOrNothing, execute_untimed seen]
    exact iff_of_true (fun _ => rfl) unseen
  · obtain ⟨i, interprets⟩ : ∃ i, e.Interprets raw i := ⟨_, snapshot, p, seen, rfl⟩
    rw [interprets.halfDone_iff]
    -- Only where a reply has come back and its entry is not stamped do the two sides depend on
    -- what the command has altered.
    cases result : i.result with
    | error failure =>
      have same : (e.after i).store = e.store := interprets.unanswered result
      rw [AllOrNothing, execute_failed interprets result]
      refine iff_of_true (fun c => by rw [same]) ?_
      rintro ⟨⟨reply, replied⟩, -⟩
      cases replied
    | ok reply =>
      rcases stamp : i.supplies.stamp i.store.commandIds with ⟨failure | ⟨id, now⟩, q⟩
      · rw [AllOrNothing, execute_unrecorded interprets result stamp]
        constructor
        · rintro same ⟨-, ⟨c, altered⟩, -⟩
          exact altered (same c)
        · intro whole c
          by_contra altered
          exact whole ⟨⟨reply, rfl⟩, ⟨c, altered⟩, failure, q, rfl⟩
      · rw [AllOrNothing, execute_recorded interprets result stamp]
        refine iff_of_true ⟨_, _, rfl, rfl, rfl, rfl⟩ ?_
        rintro ⟨-, -, failure, r, failed⟩
        cases failed

def repeating : Supplies :=
  ⟨.ofFunction fun _ => .text "x", .ofFunction fun _ => some ⟨.first, none⟩⟩

def helped : Engine MemoryMedium :=
  let store := { Store.empty with features := Store.seedFeatures (.ofUtc .first) }
  ((⟨.null, store, repeating, .create .empty .null, true⟩ : Engine MemoryMedium).execute "help").2

theorem second_command_is_half_done : ¬ helped.AllOrNothing "enable f006" := by
  intro whole
  have failed : helped.execute "enable f006" =
      (.error (.refused .idsExhausted), (helped.execute "enable f006").2) :=
    Prod.ext rfl rfl
  rw [AllOrNothing, failed] at whole
  have same : (helped.execute "enable f006").2.store.features = helped.store.features :=
    whole .features
  exact absurd same (by decide +kernel)

end Engine

end ControlPanel
