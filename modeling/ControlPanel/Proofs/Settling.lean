import ControlPanel.Proofs.Attempts

/-!
# Writes that come to an end

On a medium that does not hang, every step of the worker and its executors leaves fewer to be made.
So a writer that is left to itself comes to rest within the steps that it is given, and one that is
stopped has nothing under way any more.
-/
namespace ControlPanel

namespace WriteQueue

/-- An event that brings the writes of a queue nearer to their end, unless they hang. -/
def Event.Advances : Event → Prop
  | .pop => True
  | .hand => True
  | .begin _ => True
  | .finish _ _ => True
  | .endDirect _ => True
  | .retire => True
  | .retired => True
  | .exit => True
  | _ => False

def jobCost : List Job → Nat
  | [] => 0
  | j :: rest => (if j.begun then 1 else 2) + jobCost rest

def workerCost : Worker → Nat
  | .absent => 0
  | .ready => 1
  | .waiting _ _ => 1
  | .writing _ => 2
  | .retiring _ => 2
  | .holding _ => 4

def stepsLeft (q : WriteQueue) : Nat :=
  4 * q.pending.length + jobCost q.jobs + (if q.executor?.isSome then 2 else 0) + workerCost q.worker

theorem jobCost_append (front back : List Job) :
    jobCost (front ++ back) = jobCost front + jobCost back := by
  induction front with
  | nil => rw [List.nil_append, jobCost, Nat.zero_add]
  | cons j rest ih => rw [List.cons_append, jobCost, jobCost, ih, Nat.add_assoc]

theorem jobCost_le (jobs : List Job) : jobCost jobs ≤ 2 * jobs.length := by
  induction jobs with
  | nil => exact Nat.le_refl _
  | cons j rest ih =>
    rw [jobCost, List.length_cons]
    split <;> omega

theorem stepsLeft_setJobs {q : WriteQueue} {x : Executor} {j : Job} {rest : List Job}
    (h : q.jobsOf x = j :: rest) (jobs : List Job) :
    (q.setJobs jobs x).stepsLeft + jobCost (j :: rest) = q.stepsLeft + jobCost jobs := by
  cases x with
  | current =>
    have executor := executor_of_jobsOf h
    have before : q.stepsLeft = 4 * q.pending.length + jobCost (q.jobsOf .retired ++ j :: rest) + 2 +
        workerCost q.worker := by
      simp [stepsLeft, WriteQueue.jobs, h, executor]
    have after : (q.setJobs jobs .current).stepsLeft = 4 * q.pending.length +
        jobCost (q.jobsOf .retired ++ jobs) + 2 + workerCost q.worker := rfl
    rw [jobCost_append] at before after
    omega
  | retired =>
    have worker := worker_of_jobsOf h
    have before : q.stepsLeft = 4 * q.pending.length + jobCost ((j :: rest) ++ q.jobsOf .current) +
        (if q.executor?.isSome then 2 else 0) + 2 := by
      simp [stepsLeft, WriteQueue.jobs, h, worker, workerCost]
    have after : (q.setJobs jobs .retired).stepsLeft = 4 * q.pending.length +
        jobCost (jobs ++ q.jobsOf .current) + (if q.executor?.isSome then 2 else 0) + 2 := rfl
    rw [jobCost_append] at before after
    omega

theorem Step.stepsLeft_lt {q q' : WriteQueue} {e : Event} {begun? : Option Write}
    (step : Step q e q' begun?) (advances : e.Advances) : q'.stepsLeft < q.stepsLeft := by
  cases step with
  | queue | inline | endInline | restart | start | stop | stopAbsent | abandon => exact advances.elim
  | pop w rest ready pending =>
    simp only [stepsLeft, jobs, jobsOf, ready, pending, workerCost, List.length_cons]
    omega
  | hand w jobs holding executor =>
    simp only [stepsLeft, WriteQueue.jobs, jobsOf, holding, executor, workerCost, jobCost_append,
      Option.getD_some, jobCost, Option.isSome_some, Bool.false_eq_true, if_false, if_true]
    omega
  | handDirect w holding executor =>
    simp only [stepsLeft, jobs, jobsOf, holding, executor, workerCost]
    omega
  | begin x w rest jobs =>
    have cost := stepsLeft_setJobs jobs (⟨w, true⟩ :: rest)
    simp only [jobCost, Bool.false_eq_true, if_false, if_true] at cost
    omega
  | finish x w rest fault? jobs unawaited =>
    have cost := stepsLeft_setJobs jobs rest
    simp only [jobCost, if_true] at cost
    omega
  | finishAwaited w v limit fault? error? jobs waited =>
    have executor := executor_of_jobsOf jobs
    simp [stepsLeft, WriteQueue.jobs, jobsOf, count, waited, executor, workerCost, jobCost]
  | endDirect w fault? error? made =>
    simp [stepsLeft, jobs, jobsOf, count, made, workerCost]
  | retire jobs ready pending executor stopping =>
    simp only [stepsLeft, WriteQueue.jobs, jobsOf, ready, executor, workerCost, jobCost_append,
      Option.getD_some, Option.getD_none, Option.isSome_some, Option.isSome_none]
    simp [jobCost]
  | retired waited =>
    simp [stepsLeft, jobs, jobsOf, waited, workerCost]
  | exit ready pending executor stopping =>
    simp [stepsLeft, jobs, jobsOf, ready, pending, executor, workerCost]

structure Draining (q : WriteQueue) : Prop where
  invariant : Invariant q
  idle : q.inline? = none
  stopping : q.stopping = true

theorem draining_step {q q' : WriteQueue} {e : Event} {begun? : Option Write}
    (step : Step q e q' begun?) (advances : e.Advances) (h : Draining q) : Draining q' := by
  have none_new : submittedBy e = [] := by
    cases e <;> first | rfl | exact advances.elim
  refine ⟨step_preserves_invariant h.invariant step, inline_step step none_new h.idle, ?_⟩
  rw [← h.stopping]
  cases step with
  | queue | inline | endInline | restart | start | stop | stopAbsent | abandon => exact advances.elim
  | begin x => cases x <;> rfl
  | finish x => cases x <;> rfl
  | _ => rfl

end WriteQueue

namespace Writer

open WriteQueue

variable {μ : Type} {w w' : Writer μ}

def Moves (w w' : Writer μ) : Prop :=
  ∃ e effect, w.queue.next e = some (w'.queue, effect) ∧ e.Advances

theorem moves_happen {e : Event} (advances : e.Advances) (can : (w.queue.next e).isSome) :
    Moves w (w.happen e) := by
  obtain ⟨⟨queue, effect⟩, moved⟩ := Option.isSome_iff_exists.mp can
  refine ⟨e, effect, ?_, advances⟩
  simp only [happen, moved]
  rfl

theorem stepsLeft_le_stepBound (w : Writer μ) : w.queue.stepsLeft ≤ w.stepBound := by
  have jobs := jobCost_le w.queue.jobs
  have worker : workerCost w.queue.worker ≤ 4 := by
    cases w.queue.worker <;> simp [workerCost]
  unfold stepsLeft stepBound
  split <;> omega

variable [Medium μ]

theorem moves_land {write : Write} {ending : Option MediumFault → Event}
    (advances : ∀ fault?, (ending fault?).Advances)
    (can : ∀ fault?, (w.queue.next (ending fault?)).isSome) : Moves w (w.land write ending) := by
  rcases made : Medium.write w.medium write.key write.payload with ⟨fault?, medium⟩
  obtain ⟨⟨queue, effect⟩, moved⟩ := Option.isSome_iff_exists.mp (can fault?)
  refine ⟨ending fault?, effect, ?_, advances fault?⟩
  simp only [land, made, happen, noteAll, moved]

theorem moves_of_advanceJobs {x : Executor} (h : w.advanceJobs? .normal x = some w') :
    Moves w w' := by
  unfold advanceJobs? at h
  split at h
  · rename_i write rest jobs
    cases h
    exact moves_happen trivial (by simp [next, jobs])
  · rename_i write rest jobs
    cases h
    refine moves_land (fun _ => trivial) fun fault? => ?_
    simp only [next, jobs]
    split <;> rfl
  · cases h

theorem moves_of_advanceWorker (h : w.advanceWorker? .normal = some w') : Moves w w' := by
  unfold advanceWorker? at h
  split at h
  · cases h
  · rename_i write holding
    cases h
    refine moves_happen trivial ?_
    cases executor : w.queue.executor? <;> simp [next, holding, executor]
  · rename_i write busy
    cases h
    exact moves_land (fun _ => trivial) fun fault? => by simp [next, busy]
  · cases h
  · rename_i jobs retiring
    split at h
    · rename_i none_left
      cases h
      rw [List.isEmpty_iff.mp none_left] at retiring
      exact moves_happen trivial (by simp [next, retiring])
    · cases h
  · rename_i ready
    split at h
    · rename_i some_pending
      cases h
      obtain ⟨write, rest, pending⟩ := List.exists_cons_of_ne_nil (by simpa using some_pending)
      exact moves_happen trivial (by simp [next, ready, pending])
    · rename_i none_pending
      have pending : w.queue.pending = [] := by simpa using none_pending
      split at h
      · cases h
      · rename_i asked
        have stopping : w.queue.stopping = true := by simpa using asked
        split at h
        · rename_i some_executor
          cases h
          obtain ⟨jobs, executor⟩ := Option.isSome_iff_exists.mp some_executor
          exact moves_happen trivial (by simp [next, ready, pending, executor, stopping])
        · rename_i no_executor
          cases h
          have executor : w.queue.executor? = none := by simpa using no_executor
          exact moves_happen trivial (by simp [next, ready, pending, executor, stopping])

theorem moves_of_advance (h : w.advance? .normal = some w') : Moves w w' := by
  simp only [advance?, Option.or_eq_some_iff] at h
  rcases h with retired | ⟨-, current | ⟨-, worker⟩⟩
  · exact moves_of_advanceJobs retired
  · exact moves_of_advanceJobs current
  · exact moves_of_advanceWorker worker

/-- A writer rests after as many steps as are left to it. -/
theorem advance_run (w : Writer μ) {fuel : Nat} (enough : w.queue.stepsLeft ≤ fuel) :
    (w.run .normal fuel).advance? .normal = none := by
  induction fuel generalizing w with
  | zero =>
    rw [run]
    cases next : w.advance? .normal with
    | none => rfl
    | some w' =>
      obtain ⟨e, effect, moved, advances⟩ := moves_of_advance next
      have less := (step_of_next moved).stepsLeft_lt advances
      omega
  | succ fuel ih =>
    unfold run
    split
    · rename_i w' moved
      obtain ⟨e, effect, moved, advances⟩ := moves_of_advance moved
      have less := (step_of_next moved).stepsLeft_lt advances
      exact ih w' (by omega)
    · assumption

theorem draining_run (h : Draining w.queue) (fuel : Nat) :
    Draining (w.run .normal fuel).queue := by
  induction fuel generalizing w with
  | zero => exact h
  | succ fuel ih =>
    unfold run
    split
    · rename_i w' moved
      obtain ⟨e, effect, moved, advances⟩ := moves_of_advance moved
      exact ih (draining_step (step_of_next moved) advances h)
    · exact h

/-- A worker that is to stop rests only when it is gone. -/
theorem absent_of_rest (h : Draining w.queue) (rests : w.advance? .normal = none) :
    w.queue.worker = .absent := by
  simp only [advance?, Option.or_eq_none_iff] at rests
  obtain ⟨retired, current, worker⟩ := rests
  have none_left (x : Executor) (h : w.advanceJobs? .normal x = none) : w.queue.jobsOf x = [] := by
    unfold advanceJobs? at h
    split at h
    · cases h
    · cases h
    · assumption
  cases phase : w.queue.worker with
  | absent => rfl
  | waiting write limit =>
    obtain ⟨front, begun, executor⟩ := h.invariant.waiting write limit phase
    have free := none_left .current current
    simp [jobsOf, executor] at free
  | retiring jobs =>
    have free := none_left .retired retired
    simp only [jobsOf, phase] at free
    simp [advanceWorker?, phase, free] at worker
  | ready =>
    simp only [advanceWorker?, phase, h.stopping] at worker
    split at worker
    · cases worker
    · simp only [Bool.not_true, Bool.false_eq_true, if_false] at worker
      split at worker <;> cases worker
  | holding write => simp [advanceWorker?, phase] at worker
  | writing write => simp [advanceWorker?, phase] at worker

/-- Once a worker has been stopped, nothing is under way. -/
theorem quiet_stop (inv : Invariant w.queue) (idle : w.queue.inline? = none) (limit : Value) :
    Quiet (w.stop limit).queue := by
  unfold stop
  split
  · rename_i running
    have asked : (w.happen .stop).queue = { w.queue with stopping := true } := by
      simp [happen, next, running, noteAll]
    have draining : Draining (w.happen .stop).queue := by
      rw [asked]
      exact ⟨step_preserves_invariant inv .stop, idle, rfl⟩
    have settled := draining_run draining (w.happen .stop).stepBound
    have rests := (w.happen .stop).advance_run (w.happen .stop).stepsLeft_le_stepBound
    have gone := absent_of_rest settled rests
    exact quiet_of_absent settled.invariant settled.idle gone
  · rename_i absent
    exact quiet_of_absent inv idle ((isRunning_eq_false_iff w.queue).mp (by simpa using absent))

end Writer

end ControlPanel
