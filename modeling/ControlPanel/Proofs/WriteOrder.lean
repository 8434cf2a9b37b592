import ControlPanel.Proofs.WriteSteps

/-!
# The order of writes

An execution is any sequence of events that a write queue allows, in any order. It is recorded with
the writes that were submitted, that began on the medium and that ended there. Waiting for the
queue, to see it empty or its worker gone, changes nothing and is no event. Writes are made one at
a time, and for every key those that begin are some of those submitted, in the order of their
submission.
-/
namespace ControlPanel.WriteQueue

def writesOf (begun : Bool) (jobs : List Job) : List Write :=
  (jobs.filter fun j => j.begun = begun).map Job.write

def held (q : WriteQueue) : List Write :=
  match q.worker with
  | .holding w => [w]
  | _ => []

def direct (q : WriteQueue) : List Write :=
  match q.worker with
  | .writing w => [w]
  | _ => []

def executing (q : WriteQueue) : List Write :=
  q.inline?.toList ++ writesOf true (q.jobsOf .retired) ++ writesOf true (q.jobsOf .current) ++
    q.direct

def unbegun (q : WriteQueue) : List Write :=
  writesOf false (q.jobsOf .retired) ++ writesOf false (q.jobsOf .current)

/-- The writes that have not begun, in the order in which they can. -/
def awaiting (q : WriteQueue) : List Write :=
  q.unbegun ++ q.held ++ q.pending

structure Move where
  queue : WriteQueue
  event : Event
  effect : Effect

abbrev Trace := List Move

inductive Execution (timeout : Value) : Trace → WriteQueue → Prop where
  | start : Execution timeout [] (initial timeout)
  | next {t q e q' effect} : Execution timeout t q → q.next e = some (q', effect) →
      Execution timeout (t ++ [⟨q, e, effect⟩]) q'

def submittedBy : Event → List Write
  | .submit w => [w]
  | _ => []

/-- The write that an event brings to its end on the medium, with the fault that it raised. -/
def endedBy (q : WriteQueue) : Event → List (Write × Option MediumFault)
  | .endInline fault? => q.inline?.toList.map (·, fault?)
  | .finish x fault? => (q.jobsOf x).head?.toList.map fun j => (j.write, fault?)
  | .endDirect fault? => q.direct.map (·, fault?)
  | _ => []

namespace Trace

def submitted (t : Trace) : List Write :=
  t.flatMap fun m => submittedBy m.event

def begun (t : Trace) : List Write :=
  t.flatMap fun m => m.effect.begun?.toList

def ended (t : Trace) : List (Write × Option MediumFault) :=
  t.flatMap fun m => endedBy m.queue m.event

end Trace

def replay (t : Trace) (q : WriteQueue) : List Event → Option (Trace × WriteQueue)
  | [] => some (t, q)
  | e :: rest =>
    match q.next e with
    | some (q', effect) => replay (t ++ [⟨q, e, effect⟩]) q' rest
    | none => none

theorem execution_of_replay {timeout : Value} {t t' : Trace} {q q' : WriteQueue}
    {events : List Event} (run : Execution timeout t q)
    (h : replay t q events = some (t', q')) : Execution timeout t' q' := by
  induction events generalizing t q with
  | nil => cases h; exact run
  | cons e rest ih =>
    simp only [replay] at h
    split at h
    · rename_i q'' effect hn
      exact ih (run.next hn) h
    · cases h

theorem execution_invariant {timeout : Value} {t : Trace} {q : WriteQueue}
    (run : Execution timeout t q) : Invariant q := by
  induction run with
  | start => exact initial_invariant timeout
  | next _ h ih => exact step_preserves_invariant ih (step_of_next h)

theorem writesOf_append (begun : Bool) (front back : List Job) :
    writesOf begun (front ++ back) = writesOf begun front ++ writesOf begun back := by
  simp [writesOf]

theorem writesOf_cons (begun : Bool) (w : Write) (b : Bool) (rest : List Job) :
    writesOf begun (⟨w, b⟩ :: rest) = (if b = begun then [w] else []) ++ writesOf begun rest := by
  by_cases h : b = begun <;> simp [writesOf, h]

@[simp]
theorem writesOf_nil (begun : Bool) : writesOf begun [] = [] := rfl

/-- Behind the first job of an executor none has begun. -/
theorem writesOf_true_tail {q : WriteQueue} (inv : Invariant q) {x : Executor} {j : Job}
    {rest : List Job} (h : q.jobsOf x = j :: rest) : writesOf true rest = [] := by
  have unbegun := inv.one_begun x
  rw [h] at unbegun
  simp only [writesOf, List.map_eq_nil_iff, List.filter_eq_nil_iff]
  intro k hk
  simp [unbegun k hk]

theorem direct_of_isInFlight_eq_false {q : WriteQueue} (h : q.isInFlight = false) :
    q.direct = [] := by
  unfold direct
  split <;> simp_all [isInFlight]

theorem executing_of_inline {q : WriteQueue} (inv : Invariant q) {w : Write}
    (h : q.inline? = some w) : q.executing = [w] := by
  obtain ⟨-, jobs, calm⟩ := inv.inline (by simp [h])
  have none_left := (jobs_eq_nil_iff q).mp jobs
  simp [executing, h, none_left, direct_of_isInFlight_eq_false calm]

theorem setJobs_jobsOf {q : WriteQueue} {x : Executor} {j : Job} {rest : List Job}
    (h : q.jobsOf x = j :: rest) : q.setJobs (j :: rest) x = q := by
  cases x with
  | current => simp only [setJobs, ← executor_of_jobsOf h]
  | retired => simp only [setJobs, ← worker_of_jobsOf h]

/-- Where one executor has jobs, nothing but its jobs can be under way. -/
theorem executing_setJobs {q : WriteQueue} (inv : Invariant q) {x : Executor} {j : Job}
    {rest : List Job} (h : q.jobsOf x = j :: rest) (jobs : List Job) :
    (q.setJobs jobs x).executing = writesOf true jobs := by
  have idle := inline_eq_none_of_job inv h
  cases x with
  | current =>
    have retired := jobsOf_retired_of_current inv h
    have calm : q.direct = [] := by
      unfold direct
      split
      · rename_i v writing
        simp [inv.writing v writing] at h
      · rfl
    simp only [jobsOf, direct] at retired calm
    simp [executing, setJobs, jobsOf, direct, idle, retired, calm]
  | retired =>
    have current := inv.retiring _ (worker_of_jobsOf h)
    simp only [jobsOf] at current
    simp [executing, setJobs, jobsOf, direct, idle, current]

theorem executing_of_job {q : WriteQueue} (inv : Invariant q) {x : Executor} {w : Write}
    {begun : Bool} {rest : List Job} (h : q.jobsOf x = ⟨w, begun⟩ :: rest) :
    q.executing = if begun then [w] else [] := by
  have whole := executing_setJobs inv h (⟨w, begun⟩ :: rest)
  rw [setJobs_jobsOf h] at whole
  simp [whole, writesOf_cons, writesOf_true_tail inv h]

theorem executing_of_writing {q : WriteQueue} (inv : Invariant q) {w : Write}
    (h : q.worker = .writing w) : q.executing = [w] := by
  have idle := inline_eq_none_of_isInFlight inv (by simp [isInFlight, h])
  have retired : q.jobsOf .retired = [] := jobsOf_retired_of_ne (by simp [h])
  simp [executing, idle, direct, h, inv.writing w h, retired]

theorem at_most_one_executing {q : WriteQueue} (inv : Invariant q) : q.executing.length ≤ 1 := by
  by_cases idle : q.inline? = none
  · cases retired : q.jobsOf .retired with
    | cons j rest => rw [executing_of_job inv retired]; split <;> simp
    | nil =>
      cases current : q.jobsOf .current with
      | cons j rest => rw [executing_of_job inv current]; split <;> simp
      | nil =>
        simp only [executing, idle, retired, current, direct]
        split <;> simp
  · obtain ⟨w, busy⟩ := Option.ne_none_iff_exists'.mp idle
    simp [executing_of_inline inv busy]

/-- What begins was not under way before, and what ends was all that was. -/
theorem executing_step {q q' : WriteQueue} {e : Event} {begun? : Option Write}
    (inv : Invariant q) (step : Step q e q' begun?) :
    q.executing ++ begun?.toList = (endedBy q e).map Prod.fst ++ q'.executing := by
  cases step with
  | queue w idle running => simp [executing, endedBy, jobsOf, direct]
  | inline w idle gone =>
    simp [executing, endedBy, jobsOf, direct, idle, gone, (inv.absent gone).2]
  | endInline w fault? error? busy =>
    obtain ⟨-, jobs, calm⟩ := inv.inline (by simp [busy])
    have none_left := (jobs_eq_nil_iff q).mp jobs
    have rest := direct_of_isInFlight_eq_false calm
    simp only [jobsOf, direct] at none_left rest
    have current := none_left .current
    have retired := none_left .retired
    simp only [] at current retired
    rw [executing_of_inline inv busy]
    simp [executing, endedBy, jobsOf, direct, count, busy, current, retired, rest]
  | restart running => simp [executing, endedBy, jobsOf, direct]
  | start gone => simp [executing, endedBy, jobsOf, direct, gone]
  | stop => simp [executing, endedBy, jobsOf, direct]
  | stopAbsent gone => simp [endedBy]
  | pop w rest ready pending => simp [executing, endedBy, jobsOf, direct, ready]
  | hand w jobs holding executor =>
    simp [executing, endedBy, jobsOf, direct, holding, executor, writesOf_append, writesOf_cons]
  | handDirect w holding executor =>
    have idle := inline_eq_none_of_isInFlight inv (by simp [isInFlight, holding])
    simp [executing, endedBy, jobsOf, direct, holding, executor, idle]
  | begin x w rest jobs =>
    rw [executing_of_job inv jobs, executing_setJobs inv jobs]
    simp [endedBy, writesOf_cons, writesOf_true_tail inv jobs]
  | finish x w rest fault? jobs unawaited =>
    rw [executing_of_job inv jobs, executing_setJobs inv jobs]
    simp [endedBy, jobs, writesOf_true_tail inv jobs]
  | finishAwaited w v limit fault? error? jobs waited =>
    have idle := inline_eq_none_of_job inv jobs
    have executor := executor_of_jobsOf jobs
    rw [executing_of_job inv jobs]
    simp [executing, endedBy, jobsOf, direct, count, idle, executor]
  | endDirect w fault? error? made =>
    have idle := inline_eq_none_of_isInFlight inv (by simp [isInFlight, made])
    have current := inv.writing w made
    simp only [jobsOf] at current
    rw [executing_of_writing inv made]
    simp [executing, endedBy, jobsOf, direct, count, made, idle, current]
  | abandon w limit error? waited => simp [executing, endedBy, jobsOf, direct, waited, count]
  | retire jobs ready pending executor stopping =>
    simp [executing, endedBy, jobsOf, direct, ready, executor]
  | retired waited => simp [executing, endedBy, jobsOf, direct, waited]
  | exit ready pending executor stopping =>
    simp [executing, endedBy, jobsOf, direct, ready, executor]

/-- Writes end in the order in which they began. -/
theorem begun_eq_ended_append_executing {timeout : Value} {t : Trace} {q : WriteQueue}
    (run : Execution timeout t q) : t.begun = t.ended.map Prod.fst ++ q.executing := by
  induction run with
  | start => rfl
  | @next t q e q' effect run h ih =>
    have moved := executing_step (execution_invariant run) (step_of_next h)
    simp only [Trace.begun, Trace.ended] at ih
    simp [Trace.begun, Trace.ended, ih, moved]

def ofKey (key : String) (ws : List Write) : List Write :=
  ws.filter fun w => w.key = key

theorem ofKey_append (key : String) (front back : List Write) :
    ofKey key (front ++ back) = ofKey key front ++ ofKey key back :=
  List.filter_append ..

/-- Some of the writes of a list in their order, the last one among them. -/
structure Thinned (kept all : List Write) : Prop where
  sublist : kept.Sublist all
  last : kept.getLast? = all.getLast?

theorem Thinned.refl (ws : List Write) : Thinned ws ws := ⟨.refl _, rfl⟩

theorem Thinned.append_left {kept all : List Write} (front : List Write) (h : Thinned kept all) :
    Thinned (front ++ kept) (front ++ all) :=
  ⟨(List.Sublist.refl _).append h.sublist, by simp [List.getLast?_append, h.last]⟩

theorem Thinned.append_right {kept all : List Write} (back : List Write) (h : Thinned kept all) :
    Thinned (kept ++ back) (all ++ back) :=
  ⟨h.sublist.append (.refl _), by simp [List.getLast?_append, h.last]⟩

theorem Thinned.trans {a b c : List Write} (h : Thinned a b) (k : Thinned b c) : Thinned a c :=
  ⟨h.sublist.trans k.sublist, h.last.trans k.last⟩

/-- A new write stands behind all that are older, and replaces the one of its key. -/
theorem ofKey_enqueue (key : String) (w : Write) (pending : List Write) :
    Thinned (ofKey key (enqueue w pending)) (ofKey key (pending ++ [w])) := by
  rw [enqueue, ofKey_append, ofKey_append]
  refine ⟨(List.filter_sublist.filter _).append (.refl _), ?_⟩
  by_cases same : w.key = key
  · simp [ofKey, same]
  · have others : ofKey key (pending.filter fun old => old.key ≠ w.key) = ofKey key pending := by
      rw [ofKey, List.filter_filter]
      refine List.filter_congr fun old _ => ?_
      by_cases hk : old.key = key <;> simp [hk, Ne.symm same]
    rw [others]

/-- Only one executor has jobs. -/
theorem unbegun_setJobs {q : WriteQueue} (inv : Invariant q) {x : Executor} {j : Job}
    {rest : List Job} (h : q.jobsOf x = j :: rest) (jobs : List Job) :
    (q.setJobs jobs x).unbegun = writesOf false jobs := by
  cases x with
  | current =>
    have retired := jobsOf_retired_of_current inv h
    simp only [jobsOf] at retired
    simp [unbegun, setJobs, jobsOf, retired]
  | retired =>
    have current := inv.retiring _ (worker_of_jobsOf h)
    simp only [jobsOf] at current
    simp [unbegun, setJobs, jobsOf, current]

theorem unbegun_of_job {q : WriteQueue} (inv : Invariant q) {x : Executor} {j : Job}
    {rest : List Job} (h : q.jobsOf x = j :: rest) : q.unbegun = writesOf false (j :: rest) := by
  rw [← unbegun_setJobs inv h, setJobs_jobsOf h]

@[simp]
theorem setJobs_pending (q : WriteQueue) (jobs : List Job) (x : Executor) :
    (q.setJobs jobs x).pending = q.pending := by
  cases x <;> rfl

theorem setJobs_held {q : WriteQueue} {x : Executor} {j : Job} {rest : List Job}
    (h : q.jobsOf x = j :: rest) (jobs : List Job) : (q.setJobs jobs x).held = q.held := by
  cases x with
  | current => rfl
  | retired => simp [held, setJobs, worker_of_jobsOf h]

namespace Move

def queued? (m : Move) : Option Write :=
  match m.event with
  | .submit w => if m.queue.isRunning then some w else none
  | _ => none

def inlined? (m : Move) : Option Write :=
  match m.event with
  | .submit w => if m.queue.isRunning then none else some w
  | _ => none

def popped? (m : Move) : Option Write :=
  match m.event with
  | .pop => m.queue.pending.head?
  | _ => none

theorem submittedBy_event (m : Move) :
    submittedBy m.event = m.queued?.toList ++ m.inlined?.toList := by
  unfold submittedBy queued? inlined?
  split
  · split <;> rfl
  · rfl

end Move

def line (q : WriteQueue) : List Write := q.unbegun ++ q.held

theorem awaiting_eq (q : WriteQueue) : q.awaiting = q.line ++ q.pending := rfl

inductive Progress (m : Move) (q' : WriteQueue) : Prop where
  | queued (w) : m.queued? = some w → m.inlined? = none → m.popped? = none →
      q'.pending = enqueue w m.queue.pending →
      m.effect.begun?.toList ++ q'.line = m.queue.line → Progress m q'
  | inlined (w) : m.queued? = none → m.inlined? = some w → m.popped? = none →
      m.queue.pending = [] → q'.pending = [] →
      m.effect.begun?.toList ++ q'.line = m.queue.line ++ [w] → Progress m q'
  | popped (w rest) : m.queued? = none → m.inlined? = none → m.popped? = some w →
      m.queue.pending = w :: rest → q'.pending = rest →
      m.effect.begun?.toList ++ q'.line = m.queue.line ++ [w] → Progress m q'
  | other : m.queued? = none → m.inlined? = none → m.popped? = none →
      q'.pending = m.queue.pending →
      m.effect.begun?.toList ++ q'.line = m.queue.line → Progress m q'

theorem progress_of_step {q q' : WriteQueue} {e : Event} {effect : Effect} (inv : Invariant q)
    (step : Step q e q' effect.begun?) : Progress ⟨q, e, effect⟩ q' := by
  obtain ⟨begun?, notes⟩ := effect
  cases step with
  | queue w idle running =>
    have active := (isRunning_iff q).mpr running
    exact .queued w (by simp [Move.queued?, active]) (by simp [Move.inlined?, active]) rfl rfl rfl
  | inline w idle gone =>
    have absent := (isRunning_eq_false_iff q).mpr gone
    obtain ⟨pending, executor⟩ := inv.absent gone
    refine .inlined w (by simp [Move.queued?, absent]) (by simp [Move.inlined?, absent]) rfl
      pending pending ?_
    simp [line, unbegun, jobsOf, held, gone, executor]
  | pop w rest ready pending =>
    refine .popped w rest rfl rfl (by simp [Move.popped?, pending]) pending rfl ?_
    simp [line, unbegun, jobsOf, held, ready]
  | endInline w fault? error? busy => exact .other rfl rfl rfl rfl rfl
  | restart running => exact .other rfl rfl rfl rfl (by simp [line, unbegun, jobsOf, held])
  | start gone => exact .other rfl rfl rfl rfl (by simp [line, unbegun, jobsOf, held, gone])
  | stop => exact .other rfl rfl rfl rfl rfl
  | stopAbsent gone => exact .other rfl rfl rfl rfl rfl
  | hand w jobs holding executor =>
    refine .other rfl rfl rfl rfl ?_
    simp [line, unbegun, jobsOf, held, holding, executor, writesOf_append, writesOf_cons]
  | handDirect w holding executor =>
    refine .other rfl rfl rfl rfl ?_
    simp [line, unbegun, jobsOf, held, holding, executor]
  | begin x w rest jobs =>
    refine .other rfl rfl rfl (setJobs_pending ..) ?_
    rw [line, line, unbegun_setJobs inv jobs, unbegun_of_job inv jobs, setJobs_held jobs]
    simp [writesOf_cons]
  | finish x w rest fault? jobs unawaited =>
    refine .other rfl rfl rfl (setJobs_pending ..) ?_
    rw [line, line, unbegun_setJobs inv jobs, unbegun_of_job inv jobs, setJobs_held jobs]
    simp [writesOf_cons]
  | finishAwaited w v limit fault? error? jobs waited =>
    refine .other rfl rfl rfl rfl ?_
    rw [line, line, unbegun_of_job inv jobs]
    simp [unbegun, jobsOf, held, waited, count, writesOf_cons]
  | endDirect w fault? error? made =>
    exact .other rfl rfl rfl rfl (by simp [line, unbegun, jobsOf, held, made, count])
  | abandon w limit error? waited =>
    exact .other rfl rfl rfl rfl (by simp [line, unbegun, jobsOf, held, waited, count])
  | retire jobs ready pending executor stopping =>
    exact .other rfl rfl rfl rfl (by simp [line, unbegun, jobsOf, held, ready, executor])
  | retired waited =>
    exact .other rfl rfl rfl rfl (by simp [line, unbegun, jobsOf, held, waited])
  | exit ready pending executor stopping =>
    exact .other rfl rfl rfl rfl (by simp [line, unbegun, jobsOf, held, ready])

/-- Apart from replacements, a step only moves the line of waiting writes on. -/
theorem awaiting_step {q q' : WriteQueue} {e : Event} {begun? : Option Write}
    (inv : Invariant q) (step : Step q e q' begun?) (key : String) :
    Thinned (ofKey key (begun?.toList ++ q'.awaiting)) (ofKey key (q.awaiting ++ submittedBy e)) := by
  have progress : Progress ⟨q, e, ⟨begun?, []⟩⟩ q' := progress_of_step inv step
  rw [awaiting_eq, awaiting_eq, ← List.append_assoc, Move.submittedBy_event ⟨q, e, ⟨begun?, []⟩⟩]
  cases progress with
  | queued w queues inlines pops pending line =>
    have replaced := ofKey_enqueue key w q.pending
    rw [line, pending, queues, inlines, Option.toList_some, Option.toList_none, List.append_nil,
      List.append_assoc, ofKey_append, ofKey_append key q.line]
    exact replaced.append_left _
  | inlined w queues inlines pops none_pending none_pending' line =>
    have empty : q.pending = [] := none_pending
    simp [line, empty, none_pending', queues, inlines, Thinned.refl]
  | popped w rest queues inlines pops first pending line =>
    have parts : q.pending = w :: rest := first
    simp [line, parts, pending, queues, inlines, Thinned.refl]
  | other queues inlines pops pending line =>
    simp [line, pending, queues, inlines, Thinned.refl]

/-- For every key, what has begun and then what still waits are some of the writes submitted, in
their order and with the newest. -/
theorem begun_then_awaiting_thinned {timeout : Value} {t : Trace} {q : WriteQueue}
    (run : Execution timeout t q) (key : String) :
    Thinned (ofKey key (t.begun ++ q.awaiting)) (ofKey key t.submitted) := by
  induction run with
  | start => exact .refl _
  | @next t q e q' effect run h ih =>
    have moved := awaiting_step (execution_invariant run) (step_of_next h) key
    simp only [Trace.begun, Trace.submitted, List.flatMap_append, ofKey_append] at ih moved ⊢
    simp only [List.flatMap_cons, List.flatMap_nil, List.append_nil, List.append_assoc]
    refine (moved.append_left _).trans ?_
    rw [← List.append_assoc]
    exact ih.append_right _

/-- Writes are made one at a time and end in the order in which they begin, and those of a key
that begin are some of those submitted, each at most once and in the order of submission. -/
theorem writes_begin_in_submission_order {timeout : Value} {t : Trace} {q : WriteQueue}
    (run : Execution timeout t q) :
    q.executing.length ≤ 1 ∧ t.begun = t.ended.map Prod.fst ++ q.executing ∧
      ∀ key, (ofKey key t.begun).Sublist (ofKey key t.submitted) := by
  refine ⟨at_most_one_executing (execution_invariant run), begun_eq_ended_append_executing run, ?_⟩
  intro key
  have whole := (begun_then_awaiting_thinned run key).sublist
  rw [ofKey_append] at whole
  exact (List.sublist_append_left _ _).trans whole

/-- The first write is abandoned, and its executor given up, before it ends. A second executor
stands ready while two more writes of its key are submitted. -/
def takeover : List Event :=
  [.start, .submit ⟨"a", "1"⟩, .pop, .hand, .begin .current, .abandon, .stop, .retire, .start,
    .submit ⟨"a", "2"⟩, .submit ⟨"b", "3"⟩, .submit ⟨"a", "4"⟩, .finish .retired none, .retired,
    .pop, .hand, .begin .current]

theorem takeover_begins_in_submission_order :
    ∃ t q, replay [] (initial .null) takeover = some (t, q) ∧
      t.begun = [⟨"a", "1"⟩, ⟨"b", "3"⟩] ∧ q.executing = [⟨"b", "3"⟩] ∧
      q.executing.length ≤ 1 ∧ t.begun = t.ended.map Prod.fst ++ q.executing ∧
      ∀ key, (ofKey key t.begun).Sublist (ofKey key t.submitted) := by
  have run : replay [] (initial .null) takeover = some _ := rfl
  exact ⟨_, _, run, rfl, rfl, writes_begin_in_submission_order (execution_of_replay .start run)⟩

end ControlPanel.WriteQueue
