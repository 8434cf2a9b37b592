import ControlPanel.Proofs.AlikeEngines
import ControlPanel.Proofs.Stamping
import ControlPanel.Tracker

/-!
# Logs that tell no secrets

Two runs of an engine that differ in the handles of photos and the bodies of mails alone log the
same lines, as long as the texts that differ are equally long in JSON. A run is a list of acts, in
any order, with what the worker does behind each of them; the medium may fail at any time.
-/
namespace ControlPanel

namespace Storage

def valueTasks (c : Collection) (v : Value) : List Task :=
  match Archive.encodeValue c v with
  | .error fault => [.note (refusedNote c fault)]
  | .ok text =>
    let preview := Value.record [("emailAddress", v)]
    match Redaction.redact preview with
    | .error _ => []
    | .ok _ => [.note (queueingNote c preview), .submit ⟨c.key, text⟩]

theorem saveValue_eq_doAmid {μ : Type} [Medium μ] (w : Writer μ) (c : Collection) (v : Value) :
    ((saveValue w c v true).toOption).getD w = Writer.doAmid (valueTasks c v) [] w := by
  unfold saveValue valueTasks
  cases Archive.encodeValue c v with
  | error fault => rfl
  | ok text =>
    dsimp only
    cases Redaction.redact (.record [("emailAddress", v)]) <;> rfl

theorem valueTasks_alike (c : Collection) (v : Value) :
    List.Forall₂ Task.Alike (valueTasks c v) (valueTasks c v) := by
  unfold valueTasks
  split
  · exact Task.alike_notes [_]
  · rename_i text encoded
    have visible := Archive.allVisible_encodeValue encoded
    dsimp only
    split
    · exact .nil
    · exact .cons (.note _) (.cons (.submit (.mk visible visible (.refl c text))) .nil)

end Storage

/-- What a host and its sensors do with an engine, what goes on behind it, and what becomes of its
medium. -/
inductive Act (μ : Type) where
  | fulfil (request : Request) (gaps : Meanwhile)
  | photo (uri : Value) (gaps : Meanwhile)
  | location (lat lng accuracy : Value) (gaps : Meanwhile)
  | sample (sampling : Capture.Sampling) (gaps : Meanwhile)
  | interpret (line : CommandLine) (s : Snapshot) (gaps : Meanwhile)
  | execute (raw : Value) (first second : Meanwhile)
  | look
  | report (composer : Composer) (gaps : Meanwhile)
  | save (c : Collection) (v : Value) (gaps : Meanwhile)
  | load
  | start
  | flush (c : Conditions)
  | stop (limit : Value) (c : Conditions)
  | stopAmid (limit : Value) (works : List Work)
  | restart (timeout : Value) (seeded : Bool)
  | startTracking (interval : Value)
  | stopTracking
  | work (work : Work)
  /-- The medium begins to fail or to work, or its texts are changed. -/
  | alter (medium : μ)

namespace Engine

variable {μ : Type} [Medium μ]

def act (e : Engine μ) : Act μ → Engine μ
  | .fulfil request gaps => (e.applyAmid (e.store.fulfil e.supplies request) gaps).2
  | .photo uri gaps => (e.applyAmid (Capture.photo e.store e.supplies uri) gaps).2
  | .location lat lng accuracy gaps =>
    (e.applyAmid (Capture.location e.store e.supplies lat lng accuracy) gaps).2
  | .sample sampling gaps => (e.applyAmid (Capture.takeSample e.store e.supplies sampling) gaps).2
  | .interpret line s gaps =>
    (e.applyAmid (Interpreter.interpret e.platform line s e.store e.supplies) gaps).2
  | .execute raw first second => (e.executeAmid raw first second).2
  | .look => e.snapshot.2
  | .report composer gaps => e.reportAmid composer gaps
  | .save c v gaps => { e with writer := Writer.doAmid (Storage.valueTasks c v) gaps e.writer }
  | .load => e.load.2
  | .start => e.start.2
  | .flush c => { e with writer := e.writer.settle c }
  | .stop limit c => { e with writer := e.writer.stop limit c }
  | .stopAmid limit works => { e with writer := e.writer.stopAmid limit works }
  | .restart timeout seeded => (e.restart timeout seeded).2
  | .startTracking interval => e.noteAll [Tracker.startedNote interval]
  | .stopTracking => e.noteAll [Tracker.stoppedNote]
  | .work work => { e with writer := e.writer.work work }
  | .alter medium => { e with writer := { e.writer with medium := medium } }

def actAll (e : Engine μ) (acts : List (Act μ)) : Engine μ :=
  acts.foldl act e

def log (e : Engine μ) : List Note :=
  e.writer.journal.reverse

/-- With nothing behind them, acts are the operations of the engine. -/
theorem act_quiet (e : Engine μ) :
    (∀ request, e.act (.fulfil request []) = (e.fulfil request).2) ∧
      (∀ line s, e.act (.interpret line s []) = (e.interpret line s).2) ∧
      (∀ raw, e.act (.execute raw [] []) = (e.executeValue raw).2) ∧
      (∀ composer, e.act (.report composer []) = (e.composeReport composer).2.2) ∧
      ∀ c v, e.act (.save c v []) =
        { e with writer := ((Storage.saveValue e.writer c v true).toOption).getD e.writer } := by
  refine ⟨fun request => ?_, fun line s => ?_, fun raw => ?_, fun composer => ?_, fun c v => ?_⟩
  · rw [Engine.fulfil, apply_eq_applyAmid, act]
  · rw [Engine.interpret, apply_eq_applyAmid, act]
  · rw [executeValue_eq_executeAmid, act]
  · rw [composeReport_eq_reportAmid, act]
  · rw [Storage.saveValue_eq_doAmid, act]

end Engine

variable {μ : Type} [Medium μ] [DiscreetMedium μ]

/-- Acts that differ in a secret, in secrets that come out of the engine or lie on the medium, or
not at all. -/
inductive Act.Alike : Act μ → Act μ → Prop where
  | same (a : Act μ) : Alike a a
  | fulfil {request request' : Request} {gaps : Meanwhile} : request.Alike request' →
      Alike (.fulfil request gaps) (.fulfil request' gaps)
  | photo {uri uri' : String} {gaps : Meanwhile} : Text.isBlankText uri = false →
      Text.isBlankText uri' = false → Redaction.EquallyLong uri uri' →
      Alike (.photo (.text uri) gaps) (.photo (.text uri') gaps)
  | interpret {line : CommandLine} {s s' : Snapshot} {gaps : Meanwhile} : s.Alike s' →
      Alike (.interpret line s gaps) (.interpret line s' gaps)
  | alter {m m' : μ} : DiscreetMedium.Alike m m' → Alike (.alter m) (.alter m')

namespace Engine

variable {e e' : Engine μ}

namespace Alike

theorem alter {m m' : μ} (h : e.Alike e') (media : DiscreetMedium.Alike m m') :
    (e.act (.alter m)).Alike (e'.act (.alter m')) :=
  h.withWriter ⟨h.writer.queue, media, h.writer.journal⟩

theorem outcome {α β : Type} {view : α → β} {f f' : Value → Supplies → Outcome α} (h : e.Alike e')
    (alike : ∀ platform p, (f platform p).Alike view (f' platform p)) (gaps : Meanwhile) :
    (e.applyAmid (f e.platform e.supplies) gaps).2.Alike
      (e'.applyAmid (f' e'.platform e'.supplies) gaps).2 := by
  rw [← h.platform, ← h.supplies]
  exact (h.apply (alike _ _) gaps).2

theorem act_same (h : e.Alike e') (a : Act μ) : (e.act a).Alike (e'.act a) := by
  cases a with
  | fulfil request gaps => exact h.outcome (fun _ p => h.store.fulfil (.same request) p) gaps
  | photo uri gaps => exact h.outcome (fun _ p => h.store.photo p uri) gaps
  | location lat lng accuracy gaps =>
    exact h.outcome (fun _ p => h.store.location p lat lng accuracy) gaps
  | sample sampling gaps => exact h.outcome (fun _ p => h.store.takeSample p sampling) gaps
  | interpret line s gaps =>
    exact h.outcome (fun platform p =>
      Interpreter.alike_interpret h.store (.refl s) platform line p) gaps
  | execute raw first second => exact h.execute raw first second
  | look => exact h.snapshot.2
  | report composer gaps => exact h.report composer gaps
  | save c v gaps => exact h.withWriter (h.writer.doAmid (Storage.valueTasks_alike c v) gaps)
  | load => exact h.load.2
  | start => exact h.start
  | flush c => exact h.withWriter (h.writer.settle c)
  | stop limit c => exact h.withWriter (h.writer.stop limit c)
  | stopAmid limit works => exact h.withWriter (h.writer.stopAmid limit works)
  | restart timeout seeded => exact h.restart timeout seeded
  | startTracking interval => exact h.noteAll _
  | stopTracking => exact h.noteAll _
  | work work => exact h.withWriter (h.writer.work work)
  | alter medium => exact h.alter (DiscreetMedium.refl medium)

/-- Acts alike keep engines alike. -/
theorem act {a a' : Act μ} (h : e.Alike e') (alike : a.Alike a') : (e.act a).Alike (e'.act a') := by
  cases alike with
  | same => exact h.act_same a
  | fulfil alike => exact h.outcome (fun _ p => h.store.fulfil alike p) _
  | photo handle handle' alike =>
    exact h.outcome (fun _ p => h.store.photo_text p handle handle' alike) _
  | interpret taken =>
    exact h.outcome (fun platform p => Interpreter.alike_interpret h.store taken platform _ p) _
  | alter media => exact h.alter media

theorem actAll {acts acts' : List (Act μ)} (h : e.Alike e')
    (alike : List.Forall₂ Act.Alike acts acts') : (e.actAll acts).Alike (e'.actAll acts') := by
  induction alike generalizing e e' with
  | nil => exact h
  | cons first _ ih => exact ih (h.act first)

end Alike

/-- Engines made alike, on media that hold texts of which the log tells no difference, log the same
lines however they are used, as long as they are used alike. -/
theorem logs_tell_no_secrets {m m' : μ} {platform timeout : Value} {seeded : Bool}
    {p rest rest' : Supplies} {acts acts' : List (Act μ)} (media : DiscreetMedium.Alike m m')
    (made : create m platform timeout seeded p = (.ok e, rest))
    (made' : create m' platform timeout seeded p = (.ok e', rest'))
    (alike : List.Forall₂ Act.Alike acts acts') : (e.actAll acts).log = (e'.actAll acts').log := by
  have fresh := (Alike.create media platform timeout seeded p).1
  rw [made, made'] at fresh
  cases fresh with
  | done fresh => exact congrArg List.reverse (fresh.actAll alike).writer.journal

/-- So do the operations of the engine one by one, with nothing behind them. -/
theorem operations_tell_no_secrets (h : e.Alike e') :
    (∀ request request', request.Alike request' →
      (e.fulfil request).2.log = (e'.fulfil request').2.log) ∧
    (∀ line s s', s.Alike s' → (e.interpret line s).2.log = (e'.interpret line s').2.log) ∧
    (∀ raw, (e.executeValue raw).2.log = (e'.executeValue raw).2.log) ∧
    (∀ composer, (e.composeReport composer).2.2.log = (e'.composeReport composer).2.2.log) ∧
    ∀ c v, ((Storage.saveValue e.writer c v true).toOption.getD e.writer).journal =
      ((Storage.saveValue e'.writer c v true).toOption.getD e'.writer).journal := by
  obtain ⟨fulfil, interpret, execute, report, save⟩ := e.act_quiet
  obtain ⟨fulfil', interpret', execute', report', save'⟩ := e'.act_quiet
  have same {a a' : Act μ} (alike : a.Alike a') : (e.act a).log = (e'.act a').log :=
    congrArg List.reverse (h.act alike).writer.journal
  refine ⟨fun request request' alike => ?_, fun line s s' alike => ?_, fun raw => ?_,
    fun composer => ?_, fun c v => ?_⟩
  · rw [← fulfil, ← fulfil', same (.fulfil alike)]
  · rw [← interpret, ← interpret', same (.interpret alike)]
  · rw [← execute, ← execute', same (.same _)]
  · rw [← report, ← report', same (.same _)]
  · have saved := (h.act (.same (.save c v []))).writer.journal
    rwa [save, save'] at saved

def faltering : ScriptedMedium :=
  .empty fun n => if n = 1 then some (.other "disk full") else none

def visit (uri body : String) : List (Act ScriptedMedium) :=
  [.start, .photo (.text uri) [], .fulfil (.enqueueEmail (.text "Minutes") (.text body)) [],
    .flush .normal, .execute (.text "enable moon") [] [],
    .execute (.text "add Sun | Tells the time") [] [],
    .stop .null .normal]

/-- The log of a visit tells of a failure, and neither the handle of the photo nor the mail. -/
theorem visits_log_the_same :
    visit "roll/1.jpg" "a\"b" ≠ visit "roll/2.jpg" "wxyz" ∧
      ∃ e rest, create faltering .null (.int 5) false .numbered = (.ok e, rest) ∧
        (e.actAll (visit "roll/1.jpg" "a\"b")).log = (e.actAll (visit "roll/2.jpg" "wxyz")).log ∧
        (e.actAll (visit "roll/1.jpg" "a\"b")).log.any (·.level = .warning) := by
  have alike : List.Forall₂ Act.Alike (visit "roll/1.jpg" "a\"b") (visit "roll/2.jpg" "wxyz") := by
    refine .cons (.same _) (.cons (.photo ?_ ?_ ?_) (.cons (.fulfil (.email ?_)) ?_))
    · decide
    · decide
    · decide
    · decide
    · exact List.forall₂_same.mpr fun a _ => .same a
  have made : create faltering .null (.int 5) false .numbered =
      (.ok ⟨.null, .empty, .numbered, .create faltering (.int 5), false⟩, .numbered) := rfl
  refine ⟨by simp [visit], _, _, made, ?_, ?_⟩
  · exact logs_tell_no_secrets (DiscreetMedium.refl faltering) made made alike
  · decide +kernel

end Engine

end ControlPanel
