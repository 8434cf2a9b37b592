import ControlPanel.WriteQueue
import Mathlib.Data.List.Basic

/-!
# The steps of a write queue

What each event can do to a queue, as one case for each way in which it happens, and the invariant
that every step preserves: a write begins only where nothing else is under way.
-/
namespace ControlPanel.WriteQueue

def count (q : WriteQueue) (landed : Bool) (error? : Option WriteError) : WriteQueue :=
  { q with completed := q.completed + landed.toNat, failed := q.failed + (!landed).toNat,
           lastError? := error? }

theorem count_of_recordDirect {q q' : WriteQueue} {w : Write} {fault? : Option MediumFault}
    {effect : Effect} (h : q.recordDirect w fault? = (q', effect)) :
    ∃ error?, q' = q.count fault?.isNone error? ∧ effect.begun? = none := by
  cases fault? with
  | none => cases h; exact ⟨q.lastError?, rfl, rfl⟩
  | some fault => cases h; exact ⟨_, rfl, rfl⟩

theorem count_of_recordJob {q q' : WriteQueue} {w : Write} {fault? : Option MediumFault}
    {effect : Effect} (h : q.recordJob w fault? = (q', effect)) :
    ∃ error?, q' = q.count fault?.isNone error? ∧ effect.begun? = none := by
  cases fault? with
  | none =>
    cases h
    exact ⟨q.lastError?, rfl, rfl⟩
  | some fault =>
    cases fault <;>
      cases h <;>
      exact ⟨_, rfl, rfl⟩

inductive Step (q : WriteQueue) : Event → WriteQueue → Option Write → Prop where
  | queue (w) : q.inline? = none → q.worker ≠ .absent →
      Step q (.submit w) { q with pending := enqueue w q.pending } none
  | inline (w) : q.inline? = none → q.worker = .absent →
      Step q (.submit w) { q with inline? := some w } (some w)
  | endInline (w fault? error?) : q.inline? = some w →
      Step q (.endInline fault?) ({ q with inline? := none }.count fault?.isNone error?) none
  | restart : q.worker ≠ .absent →
      Step q .start { q with stopping := false, executor? := some (q.jobsOf .current) } none
  | start : q.worker = .absent →
      Step q .start { q with stopping := false, executor? := some (q.jobsOf .current),
                             worker := .ready } none
  | stop : Step q .stop { q with stopping := true } none
  | stopAbsent : q.worker = .absent → Step q .stop q none
  | pop (w rest) : q.worker = .ready → q.pending = w :: rest →
      Step q .pop { q with worker := .holding w, pending := rest } none
  | hand (w jobs) : q.worker = .holding w → q.executor? = some jobs →
      Step q .hand { q with worker := .waiting w q.timeout,
                            executor? := some (jobs ++ [⟨w, false⟩]) } none
  | handDirect (w) : q.worker = .holding w → q.executor? = none →
      Step q .hand { q with worker := .writing w } (some w)
  | begin (x w rest) : q.jobsOf x = ⟨w, false⟩ :: rest →
      Step q (.begin x) (q.setJobs (⟨w, true⟩ :: rest) x) (some w)
  | finish (x w rest fault?) : q.jobsOf x = ⟨w, true⟩ :: rest →
      (∀ v limit, q.worker = .waiting v limit → rest ≠ []) →
      Step q (.finish x fault?) (q.setJobs rest x) none
  | finishAwaited (w v limit fault? error?) : q.jobsOf .current = [⟨w, true⟩] →
      q.worker = .waiting v limit →
      Step q (.finish .current fault?)
        ({ q with worker := .ready, executor? := some [] }.count fault?.isNone error?) none
  | endDirect (w fault? error?) : q.worker = .writing w →
      Step q (.endDirect fault?) ({ q with worker := .ready }.count fault?.isNone error?) none
  | abandon (w limit error?) : q.worker = .waiting w limit →
      Step q .abandon ({ q with worker := .ready }.count false error?) none
  | retire (jobs) : q.worker = .ready → q.pending = [] → q.executor? = some jobs →
      q.stopping = true →
      Step q .retire { q with worker := .retiring jobs, executor? := none } none
  | retired : q.worker = .retiring [] → Step q .retired { q with worker := .ready } none
  | exit : q.worker = .ready → q.pending = [] → q.executor? = none → q.stopping = true →
      Step q .exit { q with worker := .absent } none

theorem isRunning_iff (q : WriteQueue) : q.isRunning = true ↔ q.worker ≠ .absent := by
  unfold isRunning
  split <;> simp_all

theorem isRunning_eq_false_iff (q : WriteQueue) : q.isRunning = false ↔ q.worker = .absent := by
  unfold isRunning
  split <;> simp_all

theorem step_of_next {q q' : WriteQueue} {e : Event} {effect : Effect}
    (h : q.next e = some (q', effect)) : Step q e q' effect.begun? := by
  cases e with
  | submit w =>
    simp only [next] at h
    split at h
    · cases h
    · rename_i idle
      have idle : q.inline? = none := by simpa using idle
      split at h
      · rename_i running
        cases h
        exact .queue w idle ((isRunning_iff q).mp running)
      · rename_i absent
        cases h
        exact .inline w idle ((isRunning_eq_false_iff q).mp (by simpa using absent))
  | endInline fault? =>
    simp only [next, Option.map_eq_some_iff] at h
    obtain ⟨w, hw, h⟩ := h
    obtain ⟨error?, rfl, hb⟩ := count_of_recordDirect h
    exact hb ▸ .endInline w fault? error? hw
  | start =>
    simp only [next] at h
    split at h
    · rename_i running
      cases h
      exact .restart ((isRunning_iff q).mp running)
    · rename_i absent
      cases h
      exact .start ((isRunning_eq_false_iff q).mp (by simpa using absent))
  | stop =>
    simp only [next, Option.some.injEq, Prod.mk.injEq] at h
    obtain ⟨rfl, rfl⟩ := h
    split
    · exact .stop
    · rename_i absent
      exact .stopAbsent ((isRunning_eq_false_iff q).mp (by simpa using absent))
  | pop =>
    simp only [next] at h
    split at h
    · rename_i w rest ready pending
      cases h
      exact .pop w rest ready pending
    · cases h
  | hand =>
    simp only [next] at h
    split at h
    · rename_i w jobs holding executor
      cases h
      exact .hand w jobs holding executor
    · rename_i w holding executor
      cases h
      exact .handDirect w holding executor
    · cases h
  | begin x =>
    simp only [next] at h
    split at h
    · rename_i w rest jobs
      cases h
      exact .begin x w rest jobs
    · cases h
  | finish x fault? =>
    simp only [next] at h
    split at h
    · rename_i w rest jobs
      split at h
      · rename_i v limit waiting
        cases x with
        | retired => simp [setJobs] at waiting
        | current =>
          obtain ⟨error?, rfl, hb⟩ := count_of_recordJob (Option.some.inj h)
          exact hb ▸ .finishAwaited w v limit fault? error? jobs waiting
      · rename_i unawaited
        cases h
        refine .finish x w _ fault? jobs fun v limit waiting empty => ?_
        cases x with
        | retired => simp [jobsOf, waiting] at jobs
        | current => exact unawaited v limit waiting empty
    · cases h
  | endDirect fault? =>
    simp only [next] at h
    split at h
    · rename_i w writing
      obtain ⟨error?, rfl, hb⟩ := count_of_recordDirect (Option.some.inj h)
      exact hb ▸ .endDirect w fault? error? writing
    · cases h
  | abandon =>
    simp only [next] at h
    split at h
    · rename_i w limit waiting
      cases h
      exact .abandon w limit _ waiting
    · cases h
  | retire =>
    simp only [next] at h
    split at h
    · rename_i jobs ready pending executor
      split at h
      · rename_i stopping
        cases h
        exact .retire jobs ready pending executor stopping
      · cases h
    · cases h
  | retired =>
    simp only [next] at h
    split at h
    · rename_i retiring
      cases h
      exact .retired retiring
    · cases h
  | exit =>
    simp only [next] at h
    split at h
    · rename_i ready pending executor
      split at h
      · rename_i stopping
        cases h
        exact .exit ready pending executor stopping
      · cases h
    · cases h

/-- A write begins only where nothing else is under way. -/
structure Invariant (q : WriteQueue) : Prop where
  absent : q.worker = .absent → q.pending = [] ∧ q.executor? = none
  inline : q.inline? ≠ none → q.pending = [] ∧ q.jobs = [] ∧ q.isInFlight = false
  retiring : ∀ jobs, q.worker = .retiring jobs → q.jobsOf .current = []
  writing : ∀ w, q.worker = .writing w → q.jobsOf .current = []
  waiting : ∀ w limit, q.worker = .waiting w limit →
    ∃ front begun, q.executor? = some (front ++ [⟨w, begun⟩])
  one_begun : ∀ x, ∀ j ∈ (q.jobsOf x).tail, j.begun = false

theorem initial_invariant (timeout : Value) : Invariant (initial timeout) := by
  constructor
  case one_begun => rintro (_ | _) <;> simp [initial, jobsOf]
  all_goals simp [initial, jobsOf]

theorem jobs_eq_nil_iff (q : WriteQueue) : q.jobs = [] ↔ ∀ x, q.jobsOf x = [] := by
  simp only [jobs, List.append_eq_nil_iff]
  constructor
  · rintro ⟨retired, current⟩ (_ | _)
    · exact current
    · exact retired
  · exact fun h => ⟨h .retired, h .current⟩

theorem executor_of_jobsOf {q : WriteQueue} {j : Job} {rest : List Job}
    (h : q.jobsOf .current = j :: rest) : q.executor? = some (j :: rest) := by
  cases executor : q.executor? with
  | none => simp [jobsOf, executor] at h
  | some jobs => simpa [jobsOf, executor] using h

theorem worker_of_jobsOf {q : WriteQueue} {j : Job} {rest : List Job}
    (h : q.jobsOf .retired = j :: rest) : q.worker = .retiring (j :: rest) := by
  simp only [jobsOf] at h
  split at h
  · rename_i worker
    rw [worker, h]
  · cases h

theorem jobsOf_retired_of_ne {q : WriteQueue} (h : ∀ jobs, q.worker ≠ .retiring jobs) :
    q.jobsOf .retired = [] := by
  unfold jobsOf
  split <;> simp_all

/-- Where the current executor has jobs, the retired one has none. -/
theorem jobsOf_retired_of_current {q : WriteQueue} (inv : Invariant q) {j : Job} {rest : List Job}
    (h : q.jobsOf .current = j :: rest) : q.jobsOf .retired = [] :=
  jobsOf_retired_of_ne fun jobs retiring => by simp [inv.retiring jobs retiring] at h

/-- Where an executor has jobs, no submitter makes a write. -/
theorem inline_eq_none_of_job {q : WriteQueue} (inv : Invariant q) {x : Executor} {j : Job}
    {rest : List Job} (h : q.jobsOf x = j :: rest) : q.inline? = none := by
  by_contra busy
  simp [(jobs_eq_nil_iff q).mp (inv.inline busy).2.1] at h

/-- Neither does one while the worker is busy with a write. -/
theorem inline_eq_none_of_isInFlight {q : WriteQueue} (inv : Invariant q)
    (h : q.isInFlight = true) : q.inline? = none := by
  by_contra busy
  simp [(inv.inline busy).2.2] at h

theorem Invariant.of_absent {q : WriteQueue} (gone : q.worker = .absent) (pending : q.pending = [])
    (executor : q.executor? = none) : Invariant q := by
  have none_left : q.jobs = [] := by simp [jobs, jobsOf, gone, executor]
  constructor
  case absent => exact fun _ => ⟨pending, executor⟩
  case inline => exact fun _ => ⟨pending, none_left, by simp [isInFlight, gone]⟩
  case one_begun =>
    intro x
    simp [(jobs_eq_nil_iff q).mp none_left x]
  all_goals simp [gone]

theorem Invariant.of_ready_or_holding {q : WriteQueue}
    (worker : q.worker = .ready ∨ ∃ w, q.worker = .holding w)
    (inline : q.inline? ≠ none → q.pending = [] ∧ q.jobs = [] ∧ q.isInFlight = false)
    (one : ∀ j ∈ (q.jobsOf .current).tail, j.begun = false) : Invariant q := by
  constructor
  case inline => exact inline
  case one_begun =>
    rintro (_ | _)
    · exact one
    · rcases worker with ready | ⟨w, holding⟩
      · simp [jobsOf, ready]
      · simp [jobsOf, holding]
  all_goals
    rcases worker with ready | ⟨w, holding⟩
    · simp [ready]
    · simp [holding]

theorem Invariant.of_waiting {q : WriteQueue} {w : Write} {limit : Value} {front : List Job}
    {begun : Bool} (worker : q.worker = .waiting w limit)
    (executor : q.executor? = some (front ++ [⟨w, begun⟩])) (idle : q.inline? = none)
    (one : ∀ j ∈ (q.jobsOf .current).tail, j.begun = false) : Invariant q := by
  constructor
  case inline => exact absurd idle
  case waiting =>
    intro v limit' h
    cases worker.symm.trans h
    exact ⟨front, begun, executor⟩
  case one_begun =>
    rintro (_ | _)
    · exact one
    · simp [jobsOf, worker]
  all_goals simp [worker]

theorem Invariant.of_writing {q : WriteQueue} {w : Write} (worker : q.worker = .writing w)
    (current : q.jobsOf .current = []) (idle : q.inline? = none) : Invariant q := by
  constructor
  case inline => exact absurd idle
  case writing => exact fun _ _ => current
  case one_begun =>
    rintro (_ | _)
    · simp [current]
    · simp [jobsOf, worker]
  all_goals simp [worker]

theorem Invariant.of_retiring {q : WriteQueue} {jobs : List Job}
    (worker : q.worker = .retiring jobs) (current : q.jobsOf .current = [])
    (inline : q.inline? ≠ none → q.pending = [] ∧ jobs = [])
    (one : ∀ j ∈ jobs.tail, j.begun = false) : Invariant q := by
  have retired : q.jobsOf .retired = jobs := by simp [jobsOf, worker]
  constructor
  case inline =>
    intro busy
    obtain ⟨pending, none_left⟩ := inline busy
    exact ⟨pending, by rw [WriteQueue.jobs, retired, current, none_left]; rfl,
      by simp [isInFlight, worker]⟩
  case retiring => exact fun _ _ => current
  case one_begun =>
    rintro (_ | _)
    · simp [current]
    · rwa [retired]
  all_goals simp [worker]

/-- The job that the worker waits for is the last of its executor. -/
theorem Invariant.last_job {q : WriteQueue} (inv : Invariant q) {x : Executor} {j : Job}
    {rest : List Job} (h : q.jobsOf x = j :: rest) {w : Write} {limit : Value}
    (waits : q.worker = .waiting w limit) : ∃ front begun, j :: rest = front ++ [⟨w, begun⟩] := by
  obtain ⟨front, begun, executor⟩ := inv.waiting w limit waits
  cases x with
  | current =>
    rw [executor_of_jobsOf h] at executor
    exact ⟨front, begun, Option.some.inj executor⟩
  | retired =>
    rw [worker_of_jobsOf h] at waits
    cases waits

/-- An executor goes on with its jobs: only the first may have begun, and one that the worker waits
for stays the last. -/
theorem Invariant.setJobs {q : WriteQueue} (inv : Invariant q) {x : Executor} {j : Job}
    {rest : List Job} (h : q.jobsOf x = j :: rest) {jobs : List Job}
    (one : ∀ k ∈ jobs.tail, k.begun = false)
    (awaited : ∀ w limit, q.worker = .waiting w limit →
      ∃ front begun, jobs = front ++ [⟨w, begun⟩]) : Invariant (q.setJobs jobs x) := by
  have idle : q.inline? = none := inline_eq_none_of_job inv h
  cases x with
  | retired =>
    have current : q.jobsOf .current = [] := inv.retiring _ (worker_of_jobsOf h)
    exact .of_retiring rfl current (absurd idle) one
  | current =>
    have executor : q.executor? = some (j :: rest) := executor_of_jobsOf h
    refine ⟨fun gone => ?_, absurd idle, fun left retires => ?_, fun w makes => ?_, ?_, ?_⟩
    · simp [(inv.absent gone).2] at executor
    · simp [inv.retiring left retires] at h
    · simp [inv.writing w makes] at h
    · intro w limit waits
      obtain ⟨front, begun, rfl⟩ := awaited w limit waits
      exact ⟨front, begun, rfl⟩
    · rintro (_ | _)
      · exact one
      · exact inv.one_begun .retired

theorem step_preserves_invariant {q q' : WriteQueue} {e : Event} {begun? : Option Write}
    (inv : Invariant q) (step : Step q e q' begun?) : Invariant q' := by
  have ⟨absent, inline, retiring, writing, waiting, one⟩ := inv
  cases step with
  | queue w idle running =>
    exact ⟨fun h => absurd h running, fun h => absurd idle h, retiring, writing, waiting, one⟩
  | inline w idle gone =>
    obtain ⟨pending, executor⟩ := absent gone
    exact .of_absent gone pending executor
  | endInline w fault? error? busy =>
    exact ⟨absent, fun h => absurd rfl h, retiring, writing, waiting, one⟩
  | restart running =>
    refine ⟨fun h => absurd h running, inline, retiring, writing, ?_, ?_⟩
    · intro w limit h
      obtain ⟨front, begun, executor⟩ := waiting w limit h
      exact ⟨front, begun, by simp [jobsOf, executor]⟩
    · rintro (_ | _)
      · exact one .current
      · exact one .retired
  | start gone =>
    obtain ⟨pending, executor⟩ := absent gone
    have current : q.jobsOf .current = [] := by simp [jobsOf, executor]
    exact .of_ready_or_holding (.inl rfl) (fun _ => ⟨pending, current, rfl⟩) (one .current)
  | stop => exact ⟨absent, inline, retiring, writing, waiting, one⟩
  | stopAbsent gone => exact inv
  | pop w rest ready pending =>
    refine .of_ready_or_holding (.inr ⟨w, rfl⟩) (fun busy => ?_) (one .current)
    simp [(inline busy).1] at pending
  | hand w jobs holding executor =>
    have idle := inline_eq_none_of_isInFlight inv (by simp [isInFlight, holding])
    have front := one .current
    refine .of_waiting rfl rfl idle ?_
    simp only [jobsOf, executor, Option.getD_some] at front ⊢
    cases jobs with
    | nil => simp
    | cons first others =>
      simp only [List.tail_cons, List.cons_append, List.mem_append, List.mem_singleton] at *
      rintro j (h | rfl)
      · exact front j h
      · rfl
  | handDirect w holding executor =>
    have idle := inline_eq_none_of_isInFlight inv (by simp [isInFlight, holding])
    exact .of_writing rfl (by simp [jobsOf, executor]) idle
  | begin x w rest jobs =>
    have others := one x
    rw [jobs] at others
    refine inv.setJobs jobs others fun v limit waits => ?_
    obtain ⟨front, begun, whole⟩ := inv.last_job jobs waits
    cases front with
    | nil => cases whole; exact ⟨[], true, rfl⟩
    | cons first front => cases whole; exact ⟨⟨w, true⟩ :: front, begun, rfl⟩
  | finish x w rest fault? jobs unawaited =>
    have others := one x
    rw [jobs] at others
    refine inv.setJobs jobs (fun j h => others j (List.mem_of_mem_tail h)) fun v limit waits => ?_
    obtain ⟨front, begun, whole⟩ := inv.last_job jobs waits
    cases front with
    | nil => cases whole; exact absurd rfl (unawaited _ _ waits)
    | cons first front => cases whole; exact ⟨front, begun, rfl⟩
  | finishAwaited w v limit fault? error? jobs waited =>
    have idle := inline_eq_none_of_job inv jobs
    exact .of_ready_or_holding (.inl rfl) (absurd idle) (by simp [jobsOf, count])
  | endDirect w fault? error? made =>
    have idle := inline_eq_none_of_isInFlight inv (by simp [isInFlight, made])
    exact .of_ready_or_holding (.inl rfl) (absurd idle) (one .current)
  | abandon w limit error? waited =>
    have idle := inline_eq_none_of_isInFlight inv (by simp [isInFlight, waited])
    exact .of_ready_or_holding (.inl rfl) (absurd idle) (one .current)
  | retire jobs ready pending executor stopping =>
    have current : q.jobsOf .current = jobs := by simp [jobsOf, executor]
    have front := one .current
    rw [current] at front
    refine .of_retiring rfl rfl (fun busy => ⟨pending, ?_⟩) front
    exact current ▸ (jobs_eq_nil_iff q).mp (inline busy).2.1 .current
  | retired waited =>
    have current : q.jobsOf .current = [] := retiring [] waited
    refine .of_ready_or_holding (.inl rfl) (fun busy => ?_) (one .current)
    exact ⟨(inline busy).1, current, rfl⟩
  | exit ready pending executor stopping => exact .of_absent rfl pending executor

end ControlPanel.WriteQueue
