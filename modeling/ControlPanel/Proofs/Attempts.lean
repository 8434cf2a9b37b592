import ControlPanel.Proofs.WriteAccounting
import Mathlib.Data.List.Induction
import Mathlib.Logic.Relation

/-!
# Attempted writes

A medium in memory keeps what was attempted on it, any write of which may fail. Whatever a writer
does between two submissions, what has been attempted and what is still under way are together the
writes submitted, apart from those that were replaced.
-/
namespace ControlPanel

/-- A medium in memory that fails as its script says, write by write, and keeps every attempt with
what it came to, oldest first. -/
structure ScriptedMedium where
  memory : MemoryMedium
  script : Nat → Option MediumFault
  attempts : List (Write × Option MediumFault)

namespace ScriptedMedium

open WriteQueue (newest newest_append newest_singleton keeps_memory)

def empty (script : Nat → Option MediumFault) : ScriptedMedium := ⟨.empty, script, []⟩

instance : Medium ScriptedMedium where
  read m key := Medium.read m.memory key
  write m key text :=
    let fault? := m.script m.attempts.length
    let (ended, memory) := Medium.write { m.memory with writeFault? := fault? } key text
    (ended, { m with memory := memory, attempts := m.attempts ++ [(⟨key, text⟩, ended)] })

def landed (attempts : List (Write × Option MediumFault)) : List Write :=
  attempts.filterMap fun a => if a.2.isNone then some a.1 else none

def last? (key : String) (attempts : List (Write × Option MediumFault)) :
    Option (Write × Option MediumFault) :=
  (attempts.filter fun a => a.1.key = key).getLast?

structure Sound (m : ScriptedMedium) : Prop where
  legible : m.memory.readFaults = []
  stored : ∀ key, m.memory.get? key = newest key (landed m.attempts)

theorem sound_empty (script : Nat → Option MediumFault) : (empty script).Sound :=
  ⟨rfl, fun _ => rfl⟩

theorem read_of_sound {m : ScriptedMedium} (h : m.Sound) (key : String) :
    Medium.read m key = .ok (m.memory.get? key) := by
  simp [Medium.read, h.legible]

theorem newest_concat (key : String) (ws : List Write) (w : Write) :
    newest key (ws ++ [w]) = if w.key = key then some w.payload else newest key ws := by
  rw [newest_append, newest_singleton]
  split <;> rfl

theorem last_concat (key : String) (attempts : List (Write × Option MediumFault))
    (a : Write × Option MediumFault) :
    last? key (attempts ++ [a]) = if a.1.key = key then some a else last? key attempts := by
  by_cases h : a.1.key = key <;> simp [last?, h]

theorem landed_concat (attempts : List (Write × Option MediumFault))
    (a : Write × Option MediumFault) :
    landed (attempts ++ [a]) = landed attempts ++ if a.2.isNone then [a.1] else [] := by
  obtain ⟨w, fault?⟩ := a
  cases fault? <;> simp [landed]

/-- A write leaves its text or nothing, and is kept as an attempt. -/
theorem sound_write {m m' : ScriptedMedium} {write : Write} {fault? : Option MediumFault}
    (h : m.Sound) (made : Medium.write m write.key write.payload = (fault?, m')) :
    m'.Sound ∧ m'.attempts = m.attempts ++ [(write, fault?)] := by
  cases script : m.script m.attempts.length with
  | some fault =>
    simp only [Medium.write, script] at made
    cases made
    refine ⟨⟨h.legible, fun key => ?_⟩, rfl⟩
    rw [landed_concat]
    refine (h.stored key).trans ?_
    simp
  | none =>
    have put := keeps_memory { m.memory with writeFault? := none } write.key write.payload _ rfl
    simp only [Medium.write, script] at made
    cases made
    refine ⟨⟨h.legible, fun key => ?_⟩, rfl⟩
    have same := congrFun put key
    rw [landed_concat]
    simp only [Option.isNone_none, if_true, newest_concat]
    rw [Function.update_apply] at same
    refine same.trans ?_
    by_cases own : write.key = key
    · rw [if_pos own, if_pos own.symm]
    · rw [if_neg own, if_neg (Ne.symm own), ← h.stored key]
      rfl

/-- A last attempt that did not fail left its text. -/
theorem newest_of_last {key : String} {attempts : List (Write × Option MediumFault)} {w : Write}
    (h : last? key attempts = some (w, none)) :
    newest key (landed attempts) = some w.payload ∧
      newest key (attempts.map Prod.fst) = some w.payload := by
  induction attempts using List.reverseRecOn with
  | nil => simp [last?] at h
  | append_singleton attempts a ih =>
    rw [last_concat] at h
    rw [landed_concat, List.map_append, List.map_singleton, newest_concat]
    split at h
    · rename_i own
      cases h
      have own : w.key = key := own
      simp [newest_concat, own]
    · rename_i other
      obtain ⟨stored, attempted⟩ := ih h
      rw [if_neg other]
      refine ⟨?_, attempted⟩
      split
      · rw [newest_concat, if_neg other, stored]
      · rw [List.append_nil, stored]

end ScriptedMedium

namespace WriteQueue

/-- The writes that have not ended, in the order in which they can. -/
def underway (q : WriteQueue) : List Write := q.executing ++ q.awaiting

theorem underway_of_quiet {q : WriteQueue} (h : Quiet q) : q.underway = [] := by
  rw [underway, executing_of_quiet h, awaiting_of_quiet h, List.append_nil]

/-- For every key, what ends in a step and what is under way after it are what was under way before
and what was submitted, apart from replacements. -/
theorem underway_step {q q' : WriteQueue} {e : Event} {begun? : Option Write} (inv : Invariant q)
    (step : Step q e q' begun?) (key : String) :
    Thinned (ofKey key ((endedBy q e).map Prod.fst ++ q'.underway))
      (ofKey key (q.underway ++ submittedBy e)) := by
  have waiting := awaiting_step inv step key
  have made := executing_step inv step
  rw [underway, ← List.append_assoc, ← made, underway]
  simp only [List.append_assoc, ofKey_append] at waiting ⊢
  exact waiting.append_left _

/-- Only a submission and its end concern the write that is made inline. -/
theorem inline_step {q q' : WriteQueue} {e : Event} {begun? : Option Write}
    (step : Step q e q' begun?) (submission : submittedBy e = []) (idle : q.inline? = none) :
    q'.inline? = none := by
  cases step with
  | queue w => cases submission
  | inline w => cases submission
  | begin x w rest jobs => cases x <;> exact idle
  | finish x w rest fault? jobs unawaited => cases x <;> exact idle
  | _ => first | exact idle | rfl

end WriteQueue

namespace Writer

open WriteQueue

variable {w w' w'' : Writer ScriptedMedium} {new new' : List Write}

structure Steady (w : Writer ScriptedMedium) : Prop where
  invariant : Invariant w.queue
  sound : w.medium.Sound

structure Carried (w w' : Writer ScriptedMedium) (new : List Write) : Prop where
  steady : Steady w'
  ended : ∃ ended, w'.medium.attempts = w.medium.attempts ++ ended ∧
    ∀ key, Thinned (ofKey key (ended.map Prod.fst ++ w'.queue.underway))
      (ofKey key (w.queue.underway ++ new))

theorem Carried.refl (steady : Steady w) : Carried w w [] :=
  ⟨steady, [], by simp, fun key => by simp [Thinned.refl]⟩

theorem Carried.trans (h : Carried w w' new) (h' : Carried w' w'' new') :
    Carried w w'' (new ++ new') := by
  obtain ⟨-, ended, attempts, thinned⟩ := h
  obtain ⟨steady, ended', attempts', thinned'⟩ := h'
  refine ⟨steady, ended ++ ended', by rw [attempts', attempts, List.append_assoc], fun key => ?_⟩
  have first := (thinned key).append_right (ofKey key new')
  have second := (thinned' key).append_left (ofKey key (ended.map Prod.fst))
  simp only [← ofKey_append, List.append_assoc, List.map_append] at first second ⊢
  exact second.trans first

/-- An event that ends what has been attempted on the medium. -/
theorem carried_of_next {q' : WriteQueue} {e : Event} {effect : WriteQueue.Effect}
    {medium : ScriptedMedium} (steady : Steady w) (h : w.queue.next e = some (q', effect)) (sound : medium.Sound)
    (attempts : medium.attempts = w.medium.attempts ++ endedBy w.queue e) (begun : List Write)
    (journal : List Note) : Carried w ⟨q', medium, begun, journal⟩ (submittedBy e) :=
  have step := step_of_next h
  ⟨⟨step_preserves_invariant steady.invariant step, sound⟩, endedBy w.queue e, attempts,
    underway_step steady.invariant step⟩

/-- An event that ends nothing on the medium. -/
theorem carried_happen {e : Event} (steady : Steady w) (ends : endedBy w.queue e = [])
    (h : (w.queue.next e).isSome ∨ submittedBy e = []) :
    Carried w (w.happen e) (submittedBy e) := by
  unfold happen
  cases moved : w.queue.next e with
  | none =>
    rcases h with can | none_new
    · simp [moved] at can
    · rw [none_new]
      exact .refl steady
  | some next =>
    exact carried_of_next steady moved steady.sound (by rw [ends, List.append_nil]) _ _

/-- A write that ends on the medium. -/
theorem carried_land {write : Write} {ending : Option MediumFault → Event} (steady : Steady w)
    (ends : ∀ fault?, endedBy w.queue (ending fault?) = [(write, fault?)])
    (can : ∀ fault?, (w.queue.next (ending fault?)).isSome)
    (none_new : ∀ fault?, submittedBy (ending fault?) = []) :
    Carried w (w.land write ending) [] := by
  unfold land
  rcases made : Medium.write w.medium write.key write.payload with ⟨fault?, medium⟩
  obtain ⟨sound, attempts⟩ := ScriptedMedium.sound_write steady.sound made
  obtain ⟨next, moved⟩ := Option.isSome_iff_exists.mp (can fault?)
  simp only [happen, noteAll, moved]
  rw [← none_new fault?]
  exact carried_of_next steady moved sound (by rw [ends, attempts]) _ _

/-- What may happen behind the submissions without touching the medium: the moves of the worker and
its executors, the end of a wait, and the wish to stop. -/
def IsInternal : Event → Prop
  | .stop => True
  | .pop => True
  | .hand => True
  | .begin _ => True
  | .abandon => True
  | .retire => True
  | .retired => True
  | .exit => True
  | _ => False

theorem submittedBy_internal {e : Event} (h : IsInternal e) : submittedBy e = [] := by
  cases e <;> first | rfl | exact h.elim

theorem endedBy_internal {e : Event} (h : IsInternal e) (q : WriteQueue) : endedBy q e = [] := by
  cases e <;> first | rfl | exact h.elim

inductive Works {μ : Type} [Medium μ] (w : Writer μ) : Writer μ → Prop where
  | happen (e) : IsInternal e → Works w (w.happen e)
  | finish (x write rest) : w.queue.jobsOf x = ⟨write, true⟩ :: rest →
      Works w (w.land write (.finish x))
  | endDirect (write) : w.queue.worker = .writing write → Works w (w.land write .endDirect)

theorem happen_queue {μ : Type} [Medium μ] (w : Writer μ) (e : Event) :
    (w.happen e).queue = w.queue ∨
      ∃ effect, w.queue.next e = some ((w.happen e).queue, effect) := by
  unfold happen
  cases moved : w.queue.next e with
  | none => exact .inl rfl
  | some next => exact .inr ⟨next.2, rfl⟩

theorem land_queue {μ : Type} [Medium μ] (w : Writer μ) (write : Write)
    (ending : Option MediumFault → Event) : ∃ fault?, (w.land write ending).queue = w.queue ∨
      ∃ effect, w.queue.next (ending fault?) = some ((w.land write ending).queue, effect) := by
  rcases made : Medium.write w.medium write.key write.payload with ⟨fault?, medium⟩
  have landed : w.land write ending = ({ w with medium := medium }.noteAll
      (Medium.notes w.medium write.key write.payload)).happen (ending fault?) := by
    simp only [land, made]
  rw [landed]
  exact ⟨fault?, happen_queue _ (ending fault?)⟩

/-- Behind the submissions an event happens to the queue, if anything does. -/
theorem works_queue {μ : Type} [Medium μ] {w w' : Writer μ} (h : Works w w') :
    w'.queue = w.queue ∨ ∃ e effect, w.queue.next e = some (w'.queue, effect) ∧
      submittedBy e = [] ∧ e ≠ .start := by
  cases h with
  | happen e internal =>
    rcases w.happen_queue e with same | ⟨effect, moved⟩
    · exact .inl same
    · refine .inr ⟨e, effect, moved, submittedBy_internal internal, ?_⟩
      rintro rfl
      exact internal
  | finish x write rest jobs =>
    obtain ⟨fault?, same | ⟨effect, moved⟩⟩ := w.land_queue write (.finish x)
    · exact .inl same
    · exact .inr ⟨_, effect, moved, rfl, by simp⟩
  | endDirect write busy =>
    obtain ⟨fault?, same | ⟨effect, moved⟩⟩ := w.land_queue write .endDirect
    · exact .inl same
    · exact .inr ⟨_, effect, moved, rfl, by simp⟩

structure Behind (w w' : Writer ScriptedMedium) : Prop where
  carried : Carried w w' []
  idle : w.queue.inline? = none → w'.queue.inline? = none
  absent : w.queue.worker = .absent → w'.queue.worker = .absent

theorem Behind.refl (steady : Steady w) : Behind w w := ⟨.refl steady, id, id⟩

theorem Behind.trans (h : Behind w w') (h' : Behind w' w'') : Behind w w'' :=
  ⟨h.carried.trans h'.carried, h'.idle ∘ h.idle, h'.absent ∘ h.absent⟩

/-- A worker that is absent stays absent unless it is started. -/
theorem absent_step {q q' : WriteQueue} {e : Event} {begun? : Option Write} (inv : Invariant q)
    (step : Step q e q' begun?) (gone : q.worker = .absent) (unstarted : e ≠ .start) :
    q'.worker = .absent := by
  have free (x : Executor) : q.jobsOf x = [] := by
    cases x <;> simp [jobsOf, gone, (inv.absent gone).2]
  cases step with
  | start => exact absurd rfl unstarted
  | restart => exact absurd rfl unstarted
  | begin x w rest jobs => simp [free x] at jobs
  | finish x w rest fault? jobs => simp [free x] at jobs
  | finishAwaited w v limit fault? error? jobs => simp [free] at jobs
  | _ => first | exact gone | simp_all

theorem carried_works (steady : Steady w) (h : Works w w') : Carried w w' [] := by
  cases h with
  | happen e internal =>
    have new := submittedBy_internal internal
    have carried := carried_happen steady (endedBy_internal internal _) (.inr new)
    rwa [new] at carried
  | finish x write rest jobs =>
    refine carried_land steady (fun fault? => by simp [endedBy, jobs]) (fun fault? => ?_)
      fun _ => rfl
    simp only [next, jobs]
    split <;> rfl
  | endDirect write busy =>
    refine carried_land steady (fun fault? => by simp [endedBy, direct, busy]) (fun fault? => ?_)
      fun _ => rfl
    simp [next, busy]

theorem behind_works (steady : Steady w) (h : Works w w') : Behind w w' := by
  refine ⟨carried_works steady h, fun idle => ?_, fun gone => ?_⟩
  · rcases works_queue h with same | ⟨e, effect, moved, new, -⟩
    · rwa [same]
    · exact inline_step (step_of_next moved) new idle
  · rcases works_queue h with same | ⟨e, effect, moved, -, unstarted⟩
    · rwa [same]
    · exact absent_step steady.invariant (step_of_next moved) gone unstarted

theorem works_of_advanceJobs {μ : Type} [Medium μ] {w w' : Writer μ} {c : Conditions} {x : Executor}
    (h : w.advanceJobs? c x = some w') : Works w w' := by
  unfold advanceJobs? at h
  split at h
  · cases h
    exact .happen (.begin x) trivial
  · rename_i write rest jobs
    split at h
    · cases h
    · cases h
      exact .finish x write rest jobs
  · cases h

theorem works_of_advanceWorker {μ : Type} [Medium μ] {w w' : Writer μ} {c : Conditions}
    (h : w.advanceWorker? c = some w') : Works w w' := by
  unfold advanceWorker? at h
  split at h
  · cases h
  · cases h
    exact .happen .hand trivial
  · rename_i write busy
    cases h
    exact .endDirect write busy
  · split at h
    · cases h
      exact .happen .abandon trivial
    · cases h
  · split at h
    · cases h
      exact .happen .retired trivial
    · cases h
  · split at h
    · cases h
      exact .happen .pop trivial
    · split at h
      · cases h
      · split at h
        · cases h
          exact .happen .retire trivial
        · cases h
          exact .happen .exit trivial

/-- The worker and its executors work behind the submissions. -/
theorem works_of_advance {μ : Type} [Medium μ] {w w' : Writer μ} {c : Conditions}
    (h : w.advance? c = some w') : Works w w' := by
  simp only [advance?, Option.or_eq_some_iff] at h
  rcases h with retired | ⟨-, current | ⟨-, worker⟩⟩
  · exact works_of_advanceJobs retired
  · exact works_of_advanceJobs current
  · exact works_of_advanceWorker worker

theorem behind_run (steady : Steady w) (c : Conditions) (fuel : Nat) :
    Behind w (w.run c fuel) := by
  induction fuel generalizing w with
  | zero => exact .refl steady
  | succ fuel ih =>
    unfold run
    split
    · rename_i w' moved
      have one := behind_works steady (works_of_advance moved)
      exact one.trans (ih one.carried.steady)
    · exact .refl steady

/-- Lines in the log change nothing else. -/
theorem carried_journal (h : Carried w w' new) (journal : List Note) :
    Carried w { w' with journal := journal } new :=
  ⟨⟨h.steady.invariant, h.steady.sound⟩, h.ended⟩

theorem behind_journal (h : Behind w w') (journal : List Note) :
    Behind w { w' with journal := journal } :=
  ⟨carried_journal h.carried journal, h.idle, h.absent⟩

theorem behind_settle (steady : Steady w) (c : Conditions) : Behind w (w.settle c) :=
  behind_run steady c _

theorem behind_stop (steady : Steady w) (limit : Value) (c : Conditions) :
    Behind w (w.stop limit c) := by
  unfold stop
  split
  · have asked := behind_works steady (.happen .stop trivial)
    exact behind_journal (asked.trans (behind_settle asked.carried.steady c)) _
  · exact .refl steady

/-- Starting submits nothing. -/
theorem carried_start (steady : Steady w) (idle : w.queue.inline? = none) :
    Carried w w.start [] ∧ w.start.queue.inline? = none := by
  refine ⟨carried_happen steady rfl (.inr rfl), ?_⟩
  rcases w.happen_queue .start with same | ⟨effect, moved⟩
  · rwa [start, same]
  · exact inline_step (step_of_next moved) rfl idle

/-- A submission adds one write, which has ended if there is no worker. -/
theorem carried_submit (steady : Steady w) (idle : w.queue.inline? = none) (write : Write) :
    Carried w (w.submit write) [write] ∧ (w.submit write).queue.inline? = none ∧
      (w.queue.worker = .absent → (w.submit write).queue.worker = .absent) := by
  by_cases running : w.queue.isRunning
  · have moved : w.queue.next (.submit write) =
        some ({ w.queue with pending := enqueue write w.queue.pending }, .none) := by
      simp [next, idle, running]
    have queued : (w.happen (.submit write)).queue =
        { w.queue with pending := enqueue write w.queue.pending } := by
      simp [happen, moved, noteAll]
    have whole : w.submit write = w.happen (.submit write) := by
      simp [submit, queued, idle]
    rw [whole, queued]
    exact ⟨carried_happen steady rfl (.inl (by simp [moved])), idle, id⟩
  · have moved : w.queue.next (.submit write) =
        some ({ w.queue with inline? := some write }, .begins write) := by
      simp [next, idle, running]
    have begun : (w.happen (.submit write)).queue = { w.queue with inline? := some write } := by
      simp [happen, moved, noteAll]
    have whole : w.submit write = (w.happen (.submit write)).land write .endInline := by
      simp [submit, begun]
    have submitted : Carried w (w.happen (.submit write)) [write] :=
      carried_happen steady rfl (.inl (by simp [moved]))
    have ended : Carried (w.happen (.submit write)) (w.submit write) [] := by
      rw [whole]
      exact carried_land submitted.steady (fun fault? => by simp [endedBy, begun])
        (fun fault? => by simp [next, begun]) fun _ => rfl
    have gone := (isRunning_eq_false_iff w.queue).mp (by simpa using running)
    obtain ⟨gone', idle', -⟩ := submit_inline gone idle write
    exact ⟨submitted.trans ended, idle', fun _ => gone'⟩

end Writer

end ControlPanel
