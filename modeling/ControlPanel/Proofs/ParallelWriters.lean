import ControlPanel.Proofs.AlikeWriters
import ControlPanel.Proofs.Reloading
import ControlPanel.Proofs.WrittenTexts

/-!
# Writers on two media

The queue of a writer does not look at the medium, only at how each write on it ends. So two media
on which the same writes end alike are written to in step, whatever the worker does and whenever.
-/
namespace ControlPanel

def Write.IsStored (write : Write) : Prop :=
  ∃ (c : Collection) (v : Value), write.key = c.key ∧ Archive.encodeValue c v = .ok write.payload

variable {μ ν : Type} {R : μ → ν → Prop}

/-- A relation between media that is kept by the writes of stored texts, which end alike on both. -/
def IsParallel [Medium μ] [Medium ν] (R : μ → ν → Prop) : Prop :=
  ∀ ⦃m n⦄, R m n → ∀ write : Write, write.IsStored →
    (Medium.write m write.key write.payload).1 = (Medium.write n write.key write.payload).1 ∧
      R (Medium.write m write.key write.payload).2 (Medium.write n write.key write.payload).2

namespace Writer

open WriteQueue

/-- Writers with the same queue on media that are related, only stored texts being under way. -/
structure InStep (R : μ → ν → Prop) (w : Writer μ) (v : Writer ν) : Prop where
  queue : w.queue = v.queue
  invariant : Invariant w.queue
  underway : ∀ write ∈ w.queue.underway, write.IsStored
  media : R w.medium v.medium

namespace InStep

variable {w w' : Writer μ} {v v' : Writer ν}

theorem create {m : μ} {n : ν} (related : R m n) (timeout : Value) :
    InStep R (.create m timeout) (.create n timeout) :=
  ⟨rfl, initial_invariant timeout, nofun, related⟩

/-- Only the queues and the media count. -/
theorem of_same (h : InStep R w v) (queue : w'.queue = w.queue) (medium : w'.medium = w.medium)
    (queue' : v'.queue = v.queue) (medium' : v'.medium = v.medium) : InStep R w' v' := by
  refine ⟨by rw [queue, queue', h.queue], queue ▸ h.invariant, queue ▸ h.underway, ?_⟩
  rw [medium, medium']
  exact h.media

theorem note (h : InStep R w v) (n : Note) : InStep R (w.note n) (v.note n) :=
  h.of_same rfl rfl rfl rfl

variable [Medium μ]

theorem happen {e : Event} (h : InStep R w v) (new : ∀ write ∈ submittedBy e, write.IsStored) :
    InStep R (w.happen e) (v.happen e) := by
  have queues : (w.happen e).queue = (v.happen e).queue := by
    unfold Writer.happen
    rw [← h.queue]
    cases w.queue.next e with
    | none => exact h.queue
    | some => rfl
  have media : R (w.happen e).medium (v.happen e).medium := by
    rw [happen_medium, happen_medium]
    exact h.media
  rcases w.happen_queue e with same | ⟨effect, moved⟩
  · exact ⟨queues, same ▸ h.invariant, same ▸ h.underway, media⟩
  · have step := step_of_next moved
    refine ⟨queues, step_preserves_invariant h.invariant step, fun write there => ?_, media⟩
    exact (mem_underway_step h.invariant step there).elim (h.underway write) (new write)

variable [Medium ν] (parallel : IsParallel R)

include parallel

theorem land {write : Write} {ending : Option MediumFault → Event} (h : InStep R w v)
    (there : write ∈ w.queue.underway) (none_new : ∀ fault?, submittedBy (ending fault?) = []) :
    InStep R (w.land write ending) (v.land write ending) := by
  obtain ⟨ended, related⟩ := parallel h.media write (h.underway write there)
  have landed : InStep R
      ({ w with medium := (Medium.write w.medium write.key write.payload).2 }.noteAll
        (Medium.notes w.medium write.key write.payload))
      ({ v with medium := (Medium.write v.medium write.key write.payload).2 }.noteAll
        (Medium.notes v.medium write.key write.payload)) :=
    ⟨h.queue, h.invariant, h.underway, related⟩
  unfold Writer.land
  dsimp only
  rw [ended]
  refine landed.happen fun other new => ?_
  rw [none_new] at new
  cases new

theorem work (h : InStep R w v) (work : Work) : InStep R (w.work work) (v.work work) := by
  cases work with
  | move e internal =>
    refine h.happen fun write new => ?_
    rw [submittedBy_internal internal] at new
    cases new
  | finish x =>
    unfold Writer.work
    rw [← h.queue]
    dsimp only
    split
    · rename_i write rest jobs
      exact h.land parallel (mem_underway_of_jobs jobs) fun _ => rfl
    · exact h
  | endDirect =>
    unfold Writer.work
    rw [← h.queue]
    dsimp only
    split
    · rename_i write busy
      exact h.land parallel (mem_underway_of_writing busy) fun _ => rfl
    · exact h

theorem advanceJobs (h : InStep R w v) (c : Conditions) (x : Executor) :
    Option.Rel (InStep R) (w.advanceJobs? c x) (v.advanceJobs? c x) := by
  unfold Writer.advanceJobs?
  rw [← h.queue]
  split
  · exact .some (h.happen nofun)
  · rename_i write rest jobs
    split
    · exact .none
    · exact .some (h.land parallel (mem_underway_of_jobs jobs) fun _ => rfl)
  · exact .none

theorem advanceWorker (h : InStep R w v) (c : Conditions) :
    Option.Rel (InStep R) (w.advanceWorker? c) (v.advanceWorker? c) := by
  unfold Writer.advanceWorker?
  rw [← h.queue]
  split
  · exact .none
  · exact .some (h.happen nofun)
  · rename_i write busy
    exact .some (h.land parallel (mem_underway_of_writing busy) fun _ => rfl)
  · split
    · exact .some (h.happen nofun)
    · exact .none
  · split
    · exact .some (h.happen nofun)
    · exact .none
  · split
    · exact .some (h.happen nofun)
    · split
      · exact .none
      · split
        · exact .some (h.happen nofun)
        · exact .some (h.happen nofun)

theorem advance (h : InStep R w v) (c : Conditions) :
    Option.Rel (InStep R) (w.advance? c) (v.advance? c) :=
  rel_or (h.advanceJobs parallel c .retired)
    (rel_or (h.advanceJobs parallel c .current) (h.advanceWorker parallel c))

theorem run (h : InStep R w v) (c : Conditions) (fuel : Nat) :
    InStep R (w.run c fuel) (v.run c fuel) := by
  induction fuel generalizing w v with
  | zero => exact h
  | succ fuel ih =>
    have advanced := h.advance parallel c
    unfold Writer.run
    generalize w.advance? c = next at advanced
    generalize v.advance? c = next' at advanced
    cases advanced with
    | none => exact h
    | some inStep => exact ih inStep

theorem settle (h : InStep R w v) (c : Conditions) : InStep R (w.settle c) (v.settle c) := by
  have bound : v.stepBound = w.stepBound := by
    simp only [stepBound, h.queue]
  unfold Writer.settle
  rw [bound]
  exact h.run parallel c _

theorem stop (h : InStep R w v) (limit : Value) (c : Conditions) :
    InStep R (w.stop limit c) (v.stop limit c) := by
  unfold Writer.stop
  rw [← h.queue]
  split
  · have settled := (h.happen (e := .stop) nofun).settle parallel c
    exact settled.of_same rfl rfl rfl rfl
  · exact h

theorem submit {write : Write} (h : InStep R w v) (stored : write.IsStored) :
    InStep R (w.submit write) (v.submit write) := by
  have submitted : InStep R (w.happen (.submit write)) (v.happen (.submit write)) :=
    h.happen fun other new => List.mem_singleton.mp new ▸ stored
  unfold Writer.submit
  dsimp only
  rw [← submitted.queue]
  split
  · rename_i other inline
    exact submitted.land parallel (mem_underway_of_inline inline) fun _ => rfl
  · exact submitted

end InStep

end Writer

namespace Storage

inductive Call where
  | change (change : Change)
  | value (c : Collection) (v : Value) (shown : Bool)
  | start
  | flush (c : Conditions)
  | stop (limit : Value) (c : Conditions)
  | work (work : Work)

variable [Medium μ] [Medium ν]

def call (w : Writer μ) : Call → Writer μ
  | .change change => writeThrough w change
  | .value c v shown => (saveValue w c v shown).toOption.getD w
  | .start => w.start
  | .flush c => w.settle c
  | .stop limit c => w.stop limit c
  | .work work => w.work work

variable {w : Writer μ} {v : Writer ν}

end Storage

end ControlPanel
