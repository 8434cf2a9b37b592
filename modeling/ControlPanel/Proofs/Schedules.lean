import ControlPanel.Proofs.AlikeEngines
import ControlPanel.Proofs.Conversations
import ControlPanel.Proofs.FileTransparency
import ControlPanel.Proofs.Restart
import ControlPanel.Proofs.Settling

/-!
# Commands on any schedule

The worker may do any work between the commands of a conversation and amid each of them. The replies
tell nothing of it, and once the engine is closed, neither do the files: each has the newest text
that was handed over for it.
-/
namespace ControlPanel

open WriteQueue (newest newest_append)

namespace ScriptedMedium

def healthy (m : MemoryMedium) : ScriptedMedium :=
  ⟨m, fun _ => none, m.entries.reverse.map fun (key, text) => (⟨key, text⟩, none)⟩

theorem landed_of_unfailing {attempts : List (Write × Option MediumFault)}
    (fine : ∀ a ∈ attempts, a.2 = none) : landed attempts = attempts.map Prod.fst := by
  induction attempts with
  | nil => rfl
  | cons a rest ih =>
    have first := fine a List.mem_cons_self
    have others := ih fun b among => fine b (List.mem_cons_of_mem a among)
    simpa [landed, first] using others

theorem unfailing_healthy (m : MemoryMedium) : ∀ a ∈ (healthy m).attempts, a.2 = none := by
  intro a among
  obtain ⟨entry, -, rfl⟩ := List.mem_map.mp among
  rfl

theorem newest_healthy (m : MemoryMedium) (key : String) :
    newest key ((healthy m).attempts.map Prod.fst) = m.get? key := by
  obtain ⟨entries, readFaults, writeFault?⟩ := m
  induction entries with
  | nil => rfl
  | cons first rest ih =>
    obtain ⟨name, text⟩ := first
    simp only [healthy, MemoryMedium.get?, List.reverse_cons, List.map_append, List.map_cons,
      List.map_nil, newest_concat, List.lookup_cons] at ih ⊢
    rw [ih]
    by_cases same : name = key
    · simp [same]
    · simp [same, beq_false_of_ne (Ne.symm same)]

theorem sound_healthy {m : MemoryMedium} (legible : m.readFaults = []) : (healthy m).Sound := by
  refine ⟨legible, fun key => ?_⟩
  rw [landed_of_unfailing (unfailing_healthy m), newest_healthy]
  rfl

end ScriptedMedium

namespace FileMedium

open ScriptedMedium

structure Shows (f : FileMedium) (s : ScriptedMedium) : Prop where
  mirrors : f.Mirrors s.memory
  unfailing : ∀ n, s.script n = none
  fine : ∀ a ∈ s.attempts, a.2 = none

theorem shows_healthy {f : FileMedium} {m : MemoryMedium} (h : f.Mirrors m) :
    f.Shows (healthy m) :=
  ⟨h, fun _ => rfl, unfailing_healthy m⟩

theorem isParallel_shows : IsParallel Shows := by
  intro f s h write stored
  obtain ⟨ended, mirrors⟩ := isParallel_mirrors h.mirrors write stored
  have well : { s.memory with writeFault? := none } = s.memory := by
    rw [← h.mirrors.writable]
  have made : Medium.write s write.key write.payload = (none,
      { s with memory := s.memory.put write.key write.payload,
               attempts := s.attempts ++ [(write, none)] }) := by
    simp only [Medium.write, h.unfailing, well]
  have put : Medium.write s.memory write.key write.payload =
      (none, s.memory.put write.key write.payload) := by
    simp only [Medium.write, h.mirrors.writable]
  rw [put] at ended mirrors
  rw [made]
  refine ⟨ended, mirrors, h.unfailing, fun a among => ?_⟩
  rcases List.mem_append.mp among with old | new
  · exact h.fine a old
  · rw [List.mem_singleton.mp new]

end FileMedium

namespace Writer

open FileMedium ScriptedMedium WriteQueue

/-- A writer that has been handed writes on files that mirrored a memory. Its worker may be
anywhere. -/
def Handed (m : MemoryMedium) (w : Writer FileMedium) (given : List Write) : Prop :=
  ∃ (timeout : Value) (v : Writer ScriptedMedium), InStep Shows w v ∧
    Carried (.create (healthy m) timeout) v given ∧ v.queue.inline? = none

namespace Handed

variable {m : MemoryMedium} {w : Writer FileMedium} {given : List Write}

theorem create {f : FileMedium} (h : f.Mirrors m) (timeout : Value) :
    Handed m (.create f timeout) [] :=
  ⟨timeout, _, .create (shows_healthy h) timeout,
    .refl ⟨initial_invariant timeout, sound_healthy h.legible⟩, rfl⟩

theorem note (h : Handed m w given) (n : Note) : Handed m (w.note n) given := by
  obtain ⟨timeout, v, inStep, carried, idle⟩ := h
  exact ⟨timeout, v.note n, inStep.note n, carried_journal carried _, idle⟩

theorem noteAll (h : Handed m w given) (notes : List Note) : Handed m (w.noteAll notes) given := by
  obtain ⟨timeout, v, inStep, carried, idle⟩ := h
  exact ⟨timeout, v, inStep.of_same rfl rfl rfl rfl, carried, idle⟩

theorem behind {w' : Writer FileMedium} (h : Handed m w given)
    (goes : ∀ v, InStep Shows w v → Steady v → ∃ v', InStep Shows w' v' ∧ Behind v v') :
    Handed m w' given := by
  obtain ⟨timeout, v, inStep, carried, idle⟩ := h
  obtain ⟨v', inStep', behind⟩ := goes v inStep carried.steady
  have further := carried.trans behind.carried
  rw [List.append_nil] at further
  exact ⟨timeout, v', inStep', further, behind.idle idle⟩

theorem work (h : Handed m w given) (work : Work) : Handed m (w.work work) given := by
  refine h.behind fun v inStep steady => ⟨v.work work, inStep.work isParallel_shows work, ?_⟩
  cases work with
  | move e internal => exact behind_works steady (.happen e internal)
  | finish x =>
    unfold Writer.work
    dsimp only
    split
    · rename_i write rest jobs
      exact behind_works steady (.finish x write rest jobs)
    · exact .refl steady
  | endDirect =>
    unfold Writer.work
    dsimp only
    split
    · rename_i write busy
      exact behind_works steady (.endDirect write busy)
    · exact .refl steady

theorem workAll (h : Handed m w given) (works : List Work) : Handed m (w.workAll works) given := by
  induction works generalizing w with
  | nil => exact h
  | cons work works ih => exact ih (h.work work)

theorem stop (h : Handed m w given) (limit : Value) : Handed m (w.stop limit) given :=
  h.behind fun v inStep steady =>
    ⟨v.stop limit, inStep.stop isParallel_shows limit .normal, behind_stop steady limit .normal⟩

theorem start (h : Handed m w given) : Handed m w.start given := by
  obtain ⟨timeout, v, inStep, carried, idle⟩ := h
  obtain ⟨started, idle⟩ := carried_start carried.steady idle
  have further := carried.trans started
  rw [List.append_nil] at further
  exact ⟨timeout, v.start, inStep.happen nofun, further, idle⟩

theorem submit {write : Write} (h : Handed m w given) (stored : write.IsStored) :
    Handed m (w.submit write) (given ++ [write]) := by
  obtain ⟨timeout, v, inStep, carried, idle⟩ := h
  obtain ⟨submitted, idle, -⟩ := carried_submit carried.steady idle write
  exact ⟨timeout, v.submit write, inStep.submit isParallel_shows stored, carried.trans submitted, idle⟩

theorem quiet_stop (h : Handed m w given) (limit : Value) : Quiet (w.stop limit).queue := by
  obtain ⟨timeout, v, inStep, carried, idle⟩ := h
  exact Writer.quiet_stop inStep.invariant (inStep.queue ▸ idle) limit

/-- Once nothing is under way, a file has the newest text that was handed over for it, or else its
old one. -/
theorem read_of_quiet (h : Handed m w given) (quiet : Quiet w.queue) (c : Collection) :
    w.medium.read c.key = .ok ((newest c.key given).or (m.get? c.key)) := by
  obtain ⟨timeout, v, inStep, ⟨steady, ended, attempts, thinned⟩, idle⟩ := h
  have shows := inStep.media
  have none_left : v.queue.underway = [] := underway_of_quiet (inStep.queue ▸ quiet)
  have last := (thinned c.key).last
  rw [none_left, List.append_nil] at last
  have handed : newest c.key (ended.map Prod.fst) = newest c.key given :=
    congrArg (Option.map Write.payload) last
  have stored := steady.sound.stored c.key
  rw [landed_of_unfailing shows.fine, attempts, List.map_append, newest_append, handed] at stored
  rw [← newest_healthy m c.key]
  exact (shows.mirrors.reads c).trans (congrArg Except.ok stored)

end Handed

end Writer

def Task.write? : Task → Option Write
  | .note _ => none
  | .submit write => some write

namespace Writer.Handed

variable {m : MemoryMedium} {w : Writer FileMedium} {given : List Write}

theorem doAmid (h : Handed m w given) {tasks : List Task}
    (stored : ∀ write ∈ tasks.filterMap Task.write?, write.IsStored) (gaps : Meanwhile) :
    Handed m (Writer.doAmid tasks gaps w) (given ++ tasks.filterMap Task.write?) := by
  induction tasks generalizing w given gaps with
  | nil =>
    rw [List.filterMap_nil, List.append_nil]
    exact h
  | cons task tasks ih =>
    have worked := h.workAll (gaps.headD [])
    cases task with
    | note n => exact ih (worked.note n) stored gaps.tail
    | submit write =>
      have own : write.IsStored := stored write List.mem_cons_self
      have others := fun other among => stored other (List.mem_cons_of_mem write among)
      have done := ih (worked.submit own) others gaps.tail
      rwa [List.append_assoc] at done

end Writer.Handed

theorem Outcome.stored_tasks {α : Type} (o : Outcome α) :
    ∀ write ∈ o.tasks.filterMap Task.write?, write.IsStored := by
  intro write among
  have noted : (o.notes.map Task.note).filterMap Task.write? = [] := by
    simp [List.filterMap_map, Task.write?, Function.comp_def]
  rw [Outcome.tasks, List.filterMap_append, noted, List.append_nil] at among
  cases changed : o.change? with
  | none => simp [changed] at among
  | some change =>
    rw [changed, Option.map_some, Option.getD_some, Storage.tasks] at among
    split at among
    · obtain rfl : write = _ := List.mem_singleton.mp among
      exact ⟨change.collection, _, rfl, Archive.encodeValue_toValue change.collection change.content⟩
    · cases among

namespace Engine

def workAll {μ : Type} [Medium μ] (e : Engine μ) (works : List Work) : Engine μ :=
  { e with writer := e.writer.workAll works }

/-- Engines that differ in what their workers have done: they have handed over the same writes. -/
structure Abreast (m : MemoryMedium) (a b : Engine FileMedium) : Prop where
  platform : a.platform = b.platform
  store : a.store = b.store
  supplies : a.supplies = b.supplies
  handed : ∃ given, Writer.Handed m a.writer given ∧ Writer.Handed m b.writer given

inductive EndAbreast (m : MemoryMedium) {α : Type} :
    α × Engine FileMedium → α × Engine FileMedium → Prop where
  | mk {a b : Engine FileMedium} (result : α) : Abreast m a b →
      EndAbreast m (result, a) (result, b)

namespace Abreast

variable {m : MemoryMedium} {a b : Engine FileMedium}

theorem refl {given : List Write} (h : Writer.Handed m a.writer given) : Abreast m a a :=
  ⟨rfl, rfl, rfl, given, h, h⟩

theorem workAll (h : Abreast m a b) (works : List Work) : Abreast m (a.workAll works) b := by
  obtain ⟨given, handed, handed'⟩ := h.handed
  exact ⟨h.platform, h.store, h.supplies, given, handed.workAll works, handed'⟩

theorem snapshot (h : Abreast m a b) : EndAbreast m a.snapshot b.snapshot := by
  unfold Engine.snapshot
  rw [h.store, h.supplies]
  exact .mk _ ⟨h.platform, rfl, rfl, h.handed⟩

theorem apply {α : Type} (h : Abreast m a b) (o : Outcome α) (gaps gaps' : Meanwhile) :
    EndAbreast m (a.applyAmid o gaps) (b.applyAmid o gaps') := by
  obtain ⟨given, handed, handed'⟩ := h.handed
  exact .mk o.result ⟨h.platform, rfl, rfl, _, handed.doAmid o.stored_tasks gaps,
    handed'.doAmid o.stored_tasks gaps'⟩

theorem run (h : Abreast m a b) (line : CommandLine) (command : Value)
    (first second first' second' : Meanwhile) :
    EndAbreast m (a.runAmid line command first second) (b.runAmid line command first' second') := by
  have looked := h.snapshot
  unfold runAmid
  generalize a.snapshot = left at looked
  generalize b.snapshot = right at looked
  cases looked with
  | @mk a b s? looked =>
    cases s? with
    | none => exact .mk _ looked
    | some s =>
      have interpreted := looked.apply
        (Interpreter.interpret a.platform line s a.store a.supplies) first first'
      dsimp only
      rw [← looked.platform, ← looked.store, ← looked.supplies]
      generalize a.applyAmid _ first = left at interpreted
      generalize b.applyAmid _ first' = right at interpreted
      cases interpreted with
      | @mk a b reply? interpreted =>
        cases reply? with
        | error failure => exact .mk _ interpreted
        | ok reply =>
          have recorded := interpreted.apply (a.store.fulfil a.supplies
            (.appendCommand command (.text reply.message) (.text reply.kind.text))) second second'
          dsimp only
          rw [← interpreted.store, ← interpreted.supplies]
          generalize a.applyAmid _ second = left at recorded
          generalize b.applyAmid _ second' = right at recorded
          cases recorded with
          | mk entry? recorded => cases entry? <;> exact .mk _ recorded

theorem execute (h : Abreast m a b) (raw : Value) (first second first' second' : Meanwhile) :
    EndAbreast m (a.executeAmid raw first second) (b.executeAmid raw first' second') := by
  unfold executeAmid
  split
  · exact h.run _ _ first second first' second'
  · exact h.run _ _ first second first' second'
  · exact .mk _ h

/-- Once both are closed, the files of every collection are the same. -/
theorem read_close (h : Abreast m a b) (c : Collection) :
    a.close.writer.medium.read c.key = b.close.writer.medium.read c.key := by
  obtain ⟨given, handed, handed'⟩ := h.handed
  rw [close, close]
  dsimp only
  rw [(handed.stop .null).read_of_quiet (handed.quiet_stop .null),
    (handed'.stop .null).read_of_quiet (handed'.quiet_stop .null)]

end Abreast

structure Turn where
  command : String
  before : List Work
  interpreting : Meanwhile
  recording : Meanwhile

def answerAmid {μ : Type} [Medium μ] :
    List Turn → Engine μ → List Reply × Except Failure Unit × Engine μ
  | [], e => ([], .ok (), e)
  | turn :: rest, e =>
    match (e.workAll turn.before).executeAmid (.text turn.command) turn.interpreting
        turn.recording with
    | (.error failure, e) => ([], .error failure, e)
    | (.ok reply, e) =>
      let (replies, result, e) := answerAmid rest e
      (reply :: replies, result, e)

theorem abreast_answer {m : MemoryMedium} {a b : Engine FileMedium} (h : Abreast m a b)
    (turns : List Turn) : (a.answerAmid turns).1 = (b.answer (turns.map Turn.command)).1 ∧
      EndAbreast m (a.answerAmid turns).2 (b.answer (turns.map Turn.command)).2 := by
  induction turns generalizing a b with
  | nil => exact ⟨rfl, .mk _ h⟩
  | cons turn rest ih =>
    have answered := (h.workAll turn.before).execute (.text turn.command) turn.interpreting
      turn.recording [] []
    have usual : b.execute turn.command = b.executeAmid (.text turn.command) [] [] :=
      b.executeValue_eq_executeAmid (.text turn.command)
    simp only [answerAmid, List.map_cons, answer, usual]
    generalize (a.workAll turn.before).executeAmid (.text turn.command) turn.interpreting
      turn.recording = left at answered
    generalize b.executeAmid (.text turn.command) [] [] = right at answered
    cases answered with
    | mk reply? answered =>
      cases reply? with
      | error failure => exact ⟨rfl, .mk _ answered⟩
      | ok reply =>
        obtain ⟨replies, further⟩ := ih answered
        exact ⟨congrArg (reply :: ·) replies, further⟩

theorem handed_start {m : MemoryMedium} {e e' : Engine FileMedium} {given : List Write}
    (h : Writer.Handed m e.writer given) (started : e.start = (.ok (), e')) :
    Writer.Handed m e'.writer given := by
  unfold start at started
  split at started
  · cases started
    exact h.start
  · split at started
    · cases started
    · rename_i loading
      cases started
      unfold load at loading
      split at loading
      · cases loading
        exact ((h.noteAll _).noteAll _).start
      · cases loading

theorem handed_apply {m : MemoryMedium} {e : Engine FileMedium} {given : List Write} {α : Type}
    (h : Writer.Handed m e.writer given) (o : Outcome α) :
    ∃ given', Writer.Handed m (e.apply o).2.writer given' := by
  rw [apply_eq_applyAmid]
  exact ⟨_, h.doAmid o.stored_tasks []⟩

end Engine

namespace Console

variable {o : Options} {env : Environment} {tree : FileTree} {supplies : Supplies} {s : Session}
  {set : Settings} {m : MemoryMedium}

theorem handed_setEmail {e : Engine FileMedium} {given : List Write}
    (h : Writer.Handed m e.writer given) (o : Options) :
    ∃ given', Writer.Handed m (setEmail o e).2.writer given' := by
  unfold setEmail
  split
  · exact Engine.handed_apply h _
  · exact ⟨given, h⟩
  · exact ⟨given, h⟩

/-- A session that has begun on files that mirror a memory has handed over what it has queued. -/
theorem handed_opening (chosen : settings env o = .ok set)
    (mirrors : FileMedium.Mirrors ⟨Path.ofText set.storageDir, tree⟩ m)
    (opened : opening o env tree supplies = .ok s) :
    ∃ given, Writer.Handed m s.engine.writer given := by
  obtain ⟨set', e, chosen', made, begun⟩ := opening_ok opened
  obtain rfl : set = set' := Except.ok.inj (chosen.symm.trans chosen')
  obtain ⟨store, q, rfl, -⟩ := Engine.create_parts (Prod.ext made rfl)
  have created := Writer.Handed.create mirrors set.writeTimeout
  unfold begin at begun
  split at begun
  · cases begun
  · rename_i e started
    have addressed := handed_setEmail (Engine.handed_start created started) o
    split at begun
    · cases begun
    · rename_i e' address
      cases begun
      rwa [address] at addressed

/-- Whatever the worker does between the commands of a session and amid each of them, the replies
are those of a worker that does nothing before the end, and so are the files in the end. -/
theorem answers_on_any_schedule (chosen : settings env o = .ok set)
    (mirrors : FileMedium.Mirrors ⟨Path.ofText set.storageDir, tree⟩ m)
    (opened : opening o env tree supplies = .ok s) (turns : List Engine.Turn) :
    let amid := s.engine.answerAmid turns
    let usual := s.engine.answer (turns.map Engine.Turn.command)
    amid.1 = usual.1 ∧ amid.2.1 = usual.2.1 ∧
      ∀ (last : List Work) (c : Collection),
        (amid.2.2.workAll last).close.writer.medium.read c.key =
          usual.2.2.close.writer.medium.read c.key := by
  obtain ⟨given, handed⟩ := handed_opening chosen mirrors opened
  obtain ⟨replies, ended⟩ := Engine.abreast_answer (.refl handed) turns
  dsimp only
  generalize (s.engine.answerAmid turns).2 = left at ended ⊢
  generalize (s.engine.answer (turns.map Engine.Turn.command)).2 = right at ended ⊢
  cases ended with
  | mk result abreast => exact ⟨replies, rfl, fun last c => (abreast.workAll last).read_close c⟩

end Console

end ControlPanel
