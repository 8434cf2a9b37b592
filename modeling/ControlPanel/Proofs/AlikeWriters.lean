import ControlPanel.Proofs.DiscreetMedia

/-!
# Writing texts that differ in secrets

The queue looks at the keys and the lengths of what it writes. So two queues that are given texts of
which the log tells no difference move in step and log the same lines, on media that answer alike.
-/
namespace ControlPanel

open WriteQueue (Event Executor)

inductive Write.Alike : Write → Write → Prop where
  | mk {c : Collection} {text text' : String} : Json.AllVisible text.toList →
      Json.AllVisible text'.toList → Archive.TextsAlike c text text' →
      Alike ⟨c.key, text⟩ ⟨c.key, text'⟩

inductive Job.Alike : Job → Job → Prop where
  | mk {w w' : Write} {begun : Bool} : w.Alike w' → Alike ⟨w, begun⟩ ⟨w', begun⟩

inductive Worker.Alike : Worker → Worker → Prop where
  | absent : Alike .absent .absent
  | ready : Alike .ready .ready
  | holding {w w' : Write} : w.Alike w' → Alike (.holding w) (.holding w')
  | waiting {w w' : Write} {limit : Value} : w.Alike w' → Alike (.waiting w limit) (.waiting w' limit)
  | writing {w w' : Write} : w.Alike w' → Alike (.writing w) (.writing w')
  | retiring {jobs jobs' : List Job} : List.Forall₂ Job.Alike jobs jobs' →
      Alike (.retiring jobs) (.retiring jobs')

namespace WriteQueue

inductive Alike : WriteQueue → WriteQueue → Prop where
  | mk {timeout : Value} {pending pending' : List Write} {worker worker' : Worker} {stopping : Bool}
      {executor? executor'? : Option (List Job)} {inline? inline'? : Option Write}
      {completed failed : Nat} {lastError? : Option WriteError} :
      List.Forall₂ Write.Alike pending pending' → worker.Alike worker' →
      Option.Rel (List.Forall₂ Job.Alike) executor? executor'? →
      Option.Rel Write.Alike inline? inline'? →
      Alike ⟨timeout, pending, worker, stopping, executor?, inline?, completed, failed, lastError?⟩
        ⟨timeout, pending', worker', stopping, executor'?, inline'?, completed, failed, lastError?⟩

inductive Effect.Alike : Effect → Effect → Prop where
  | mk {begun? begun'? : Option Write} {notes : List Note} : Option.Rel Write.Alike begun? begun'? →
      Alike ⟨begun?, notes⟩ ⟨begun'?, notes⟩

inductive Event.Alike : Event → Event → Prop where
  | submit {w w' : Write} : w.Alike w' → Alike (.submit w) (.submit w')
  | same {e : Event} : (∀ w, e ≠ .submit w) → Alike e e

def MovesAlike (a b : WriteQueue × Effect) : Prop := a.1.Alike b.1 ∧ a.2.Alike b.2

variable {q q' : WriteQueue} {w w' : Write} {x : Executor}

namespace Alike

theorem jobsOf (h : q.Alike q') (x : Executor) :
    List.Forall₂ Job.Alike (q.jobsOf x) (q'.jobsOf x) := by
  cases h with
  | mk pending worker executor inline =>
    cases x with
    | current =>
      cases executor with
      | none => exact .nil
      | some jobs => exact jobs
    | retired =>
      cases worker with
      | retiring jobs => exact jobs
      | _ => exact .nil

theorem setJobs {jobs jobs' : List Job} (h : q.Alike q') (x : Executor)
    (alike : List.Forall₂ Job.Alike jobs jobs') : (q.setJobs jobs x).Alike (q'.setJobs jobs' x) := by
  cases h with
  | mk pending worker executor inline =>
    cases x with
    | current => exact .mk pending worker (.some alike) inline
    | retired => exact .mk pending (.retiring alike) executor inline

theorem worker (h : q.Alike q') : q.worker.Alike q'.worker := by
  cases h with
  | mk _ worker => exact worker

theorem pending (h : q.Alike q') : List.Forall₂ Write.Alike q.pending q'.pending := by
  cases h with
  | mk pending => exact pending

theorem pending_isEmpty (h : q.Alike q') : q.pending.isEmpty = q'.pending.isEmpty := by
  cases h with
  | mk pending => cases pending <;> rfl

theorem inline (h : q.Alike q') : Option.Rel Write.Alike q.inline? q'.inline? := by
  cases h with
  | mk _ _ _ inline => exact inline

theorem stopping_eq (h : q.Alike q') : q.stopping = q'.stopping := by
  cases h
  rfl

theorem executor_isSome (h : q.Alike q') : q.executor?.isSome = q'.executor?.isSome := by
  cases h with
  | mk _ _ executor => cases executor <;> rfl

theorem isRunning (h : q.Alike q') : q.isRunning = q'.isRunning := by
  cases h with
  | mk _ worker => cases worker <;> rfl

/-- What is recorded of a write depends on its key and on the length of its text. -/
theorem recordFailure {message : String} (h : q.Alike q') (alike : w.Alike w') :
    MovesAlike (q.recordFailure w message) (q'.recordFailure w' message) := by
  cases h with
  | mk pending worker executor inline =>
    cases alike with
    | mk => exact ⟨.mk pending worker executor inline, .mk .none⟩

theorem recordDirect (h : q.Alike q') (alike : w.Alike w') (fault? : Option MediumFault) :
    MovesAlike (q.recordDirect w fault?) (q'.recordDirect w' fault?) := by
  cases fault? with
  | none =>
    cases h with
    | mk pending worker executor inline =>
      cases alike with
      | @mk c text text' _ _ texts =>
        have same : persistedNote ⟨c.key, text⟩ = persistedNote ⟨c.key, text'⟩ := by
          simp only [persistedNote, texts.length]
        refine ⟨.mk pending worker executor inline, ?_⟩
        simp only [WriteQueue.recordDirect, same]
        exact .mk .none
  | some fault =>
    have message : failedMessage w fault = failedMessage w' fault := by
      cases alike
      cases fault <;> rfl
    simp only [WriteQueue.recordDirect, message]
    exact h.recordFailure alike

theorem abandonedMessage_eq (h : q.Alike q') (alike : w.Alike w') :
    q.abandonedMessage w = q'.abandonedMessage w' := by
  cases h
  cases alike
  rfl

theorem recordJob (h : q.Alike q') (alike : w.Alike w') (fault? : Option MediumFault) :
    MovesAlike (q.recordJob w fault?) (q'.recordJob w' fault?) := by
  unfold WriteQueue.recordJob
  split
  · rw [h.abandonedMessage_eq alike]
    exact h.recordFailure alike
  · exact h.recordDirect alike fault?

theorem enqueue {pending pending' : List Write} (h : List.Forall₂ Write.Alike pending pending')
    (alike : w.Alike w') :
    List.Forall₂ Write.Alike (enqueue w pending) (enqueue w' pending') := by
  have keys {v v' : Write} (h : v.Alike v') : v.key = v'.key := by
    cases h
    rfl
  unfold WriteQueue.enqueue
  rw [← keys alike]
  refine List.rel_append ?_ (.cons alike .nil)
  induction h with
  | nil => exact .nil
  | cons first _ ih =>
    simp only [List.filter_cons, keys first]
    split
    · exact .cons first ih
    · exact ih

theorem next_start (h : q.Alike q') : Option.Rel MovesAlike (q.next .start) (q'.next .start) := by
  have running := h.isRunning
  have jobs := h.jobsOf .current
  simp only [next, running]
  cases h with
  | mk pending worker executor inline =>
    split
    · exact .some ⟨.mk pending worker (.some jobs) inline, .mk .none⟩
    · exact .some ⟨.mk pending .ready (.some jobs) inline, .mk .none⟩

theorem next_stop (h : q.Alike q') : Option.Rel MovesAlike (q.next .stop) (q'.next .stop) := by
  have running := h.isRunning
  simp only [next, running]
  cases h with
  | mk pending worker executor inline =>
    split
    · exact .some ⟨.mk pending worker executor inline, .mk .none⟩
    · exact .some ⟨.mk pending worker executor inline, .mk .none⟩

theorem next_begin (h : q.Alike q') (x : Executor) :
    Option.Rel MovesAlike (q.next (.begin x)) (q'.next (.begin x)) := by
  have jobs := h.jobsOf x
  simp only [next]
  generalize q.jobsOf x = js at jobs
  generalize q'.jobsOf x = js' at jobs
  cases jobs with
  | nil => exact .none
  | cons first rest =>
    cases first with
    | @mk w w' begun alike =>
      cases begun with
      | true => exact .none
      | false => exact .some ⟨h.setJobs x (.cons (.mk alike) rest), .mk (.some alike)⟩

theorem next_finish (h : q.Alike q') (x : Executor) (fault? : Option MediumFault) :
    Option.Rel MovesAlike (q.next (.finish x fault?)) (q'.next (.finish x fault?)) := by
  have jobs := h.jobsOf x
  simp only [next]
  generalize q.jobsOf x = js at jobs
  generalize q'.jobsOf x = js' at jobs
  cases jobs with
  | nil => exact .none
  | cons first rest =>
    cases first with
    | @mk w w' begun alike =>
      cases begun with
      | false => exact .none
      | true =>
        have moved := h.setJobs x rest
        dsimp only
        generalize q.setJobs _ x = r at moved
        generalize q'.setJobs _ x = r' at moved
        cases moved with
        | mk pending worker executor inline =>
          -- An end is recorded only if the worker still waits for this job, which is then the last.
          cases worker with
          | waiting alike =>
            cases rest with
            | nil =>
              exact .some (Alike.recordJob (.mk pending .ready executor inline) alike fault?)
            | cons first rest =>
              exact .some ⟨.mk pending (.waiting alike) executor inline, .mk .none⟩
          | absent => exact .some ⟨.mk pending .absent executor inline, .mk .none⟩
          | ready => exact .some ⟨.mk pending .ready executor inline, .mk .none⟩
          | holding w => exact .some ⟨.mk pending (.holding w) executor inline, .mk .none⟩
          | writing w => exact .some ⟨.mk pending (.writing w) executor inline, .mk .none⟩
          | retiring jobs => exact .some ⟨.mk pending (.retiring jobs) executor inline, .mk .none⟩

theorem next_endInline (h : q.Alike q') (fault? : Option MediumFault) :
    Option.Rel MovesAlike (q.next (.endInline fault?)) (q'.next (.endInline fault?)) := by
  cases h with
  | mk pending worker executor inline =>
    cases inline with
    | none => exact .none
    | some alike => exact .some (Alike.recordDirect (.mk pending worker executor .none) alike fault?)

theorem next_pop (h : q.Alike q') : Option.Rel MovesAlike (q.next .pop) (q'.next .pop) := by
  cases h with
  | mk pending worker executor inline =>
    cases worker with
    | ready =>
      cases pending with
      | nil => exact .none
      | cons first rest => exact .some ⟨.mk rest (.holding first) executor inline, .mk .none⟩
    | _ => exact .none

theorem next_hand (h : q.Alike q') : Option.Rel MovesAlike (q.next .hand) (q'.next .hand) := by
  cases h with
  | mk pending worker executor inline =>
    cases worker with
    | holding alike =>
      cases executor with
      | none => exact .some ⟨.mk pending (.writing alike) .none inline, .mk (.some alike)⟩
      | some jobs =>
        exact .some ⟨.mk pending (.waiting alike)
          (.some (List.rel_append jobs (.cons (.mk alike) .nil))) inline, .mk .none⟩
    | _ => exact .none

theorem next_endDirect (h : q.Alike q') (fault? : Option MediumFault) :
    Option.Rel MovesAlike (q.next (.endDirect fault?)) (q'.next (.endDirect fault?)) := by
  cases h with
  | mk pending worker executor inline =>
    cases worker with
    | writing alike =>
      exact .some (Alike.recordDirect (.mk pending .ready executor inline) alike fault?)
    | _ => exact .none

theorem next_abandon (h : q.Alike q') :
    Option.Rel MovesAlike (q.next .abandon) (q'.next .abandon) := by
  cases h with
  | mk pending worker executor inline =>
    cases worker with
    | waiting alike =>
      cases alike with
      | mk visible visible' texts =>
        exact .some (Alike.recordFailure (.mk pending .ready executor inline)
          (.mk visible visible' texts))
    | _ => exact .none

theorem next_retire (h : q.Alike q') :
    Option.Rel MovesAlike (q.next .retire) (q'.next .retire) := by
  cases h with
  | mk pending worker executor inline =>
    cases worker with
    | ready =>
      cases pending with
      | nil =>
        cases executor with
        | none => exact .none
        | some jobs =>
          simp only [next]
          split
          · exact .some ⟨.mk .nil (.retiring jobs) .none inline, .mk .none⟩
          · exact .none
      | cons => exact .none
    | _ => exact .none

theorem next_retired (h : q.Alike q') :
    Option.Rel MovesAlike (q.next .retired) (q'.next .retired) := by
  cases h with
  | mk pending worker executor inline =>
    cases worker with
    | retiring jobs =>
      cases jobs with
      | nil => exact .some ⟨.mk pending .ready executor inline, .mk .none⟩
      | cons => exact .none
    | _ => exact .none

theorem next_exit (h : q.Alike q') : Option.Rel MovesAlike (q.next .exit) (q'.next .exit) := by
  cases h with
  | mk pending worker executor inline =>
    cases worker with
    | ready =>
      cases pending with
      | nil =>
        cases executor with
        | none =>
          simp only [next]
          split
          · exact .some ⟨.mk .nil .absent .none inline, .mk .none⟩
          · exact .none
        | some => exact .none
      | cons => exact .none
    | _ => exact .none

end Alike

/-- Queues alike move alike when an event submits nothing. -/
theorem next_same (h : q.Alike q') {e : Event} (other : ∀ w, e ≠ .submit w) :
    Option.Rel MovesAlike (q.next e) (q'.next e) := by
  cases e with
  | submit w => exact absurd rfl (other w)
  | start => exact h.next_start
  | stop => exact h.next_stop
  | begin x => exact h.next_begin x
  | finish x fault? => exact h.next_finish x fault?
  | endInline fault? => exact h.next_endInline fault?
  | pop => exact h.next_pop
  | hand => exact h.next_hand
  | endDirect fault? => exact h.next_endDirect fault?
  | abandon => exact h.next_abandon
  | retire => exact h.next_retire
  | retired => exact h.next_retired
  | exit => exact h.next_exit

/-- Events alike happen to queues alike with the same lines, or to neither. -/
theorem next_alike {e e' : Event} (h : q.Alike q') (alike : Event.Alike e e') :
    Option.Rel MovesAlike (q.next e) (q'.next e') := by
  cases alike with
  | same other => exact next_same h other
  | @submit w w' alike =>
    have running := h.isRunning
    cases h with
    | mk pending worker executor inline =>
      cases inline with
      | some => exact .none
      | none =>
        simp only [next, Option.isSome_none, Bool.false_eq_true, if_false, running]
        split
        · exact .some ⟨.mk (Alike.enqueue pending alike) worker executor .none, .mk .none⟩
        · exact .some ⟨.mk pending worker executor (.some alike), .mk (.some alike)⟩

end WriteQueue

/-- What happens behind a caller: moves of the worker, and the ends of writes on the medium. -/
inductive Work where
  | move (e : Event) (internal : Writer.IsInternal e)
  | finish (x : Executor)
  | endDirect

namespace Writer

def work {μ : Type} [Medium μ] (w : Writer μ) : Work → Writer μ
  | .move e _ => w.happen e
  | .finish x =>
    match w.queue.jobsOf x with
    | ⟨write, true⟩ :: _ => w.land write (.finish x)
    | _ => w
  | .endDirect =>
    match w.queue.worker with
    | .writing write => w.land write .endDirect
    | _ => w

def workAll {μ : Type} [Medium μ] (w : Writer μ) (works : List Work) : Writer μ :=
  works.foldl work w

/-- Stops the worker with a wait that ends after some work, whether the worker is gone by then or
not. -/
def stopAmid {μ : Type} [Medium μ] (w : Writer μ) (limit : Value) (works : List Work) : Writer μ :=
  if w.queue.isRunning then
    let w := (w.happen .stop).workAll works
    w.note (if w.queue.isRunning then drainingNote limit else stoppedNote)
  else w

theorem rel_or {α β : Type} {R : α → β → Prop} {a b : Option α} {a' b' : Option β}
    (first : Option.Rel R a a') (second : Option.Rel R b b') : Option.Rel R (a.or b) (a'.or b') := by
  cases first with
  | none => exact second
  | some related => exact .some related

variable {μ : Type} [Medium μ] [DiscreetMedium μ] {w w' : Writer μ}

structure Alike (w w' : Writer μ) : Prop where
  queue : w.queue.Alike w'.queue
  medium : DiscreetMedium.Alike w.medium w'.medium
  journal : w.journal = w'.journal

namespace Alike

theorem create {medium medium' : μ} (h : DiscreetMedium.Alike medium medium') (timeout : Value) :
    (Writer.create medium timeout).Alike (Writer.create medium' timeout) :=
  ⟨.mk .nil .absent .none .none, h, rfl⟩

theorem note (h : w.Alike w') (n : Note) : (w.note n).Alike (w'.note n) :=
  ⟨h.queue, h.medium, congrArg (n :: ·) h.journal⟩

theorem noteAll (h : w.Alike w') (notes : List Note) : (w.noteAll notes).Alike (w'.noteAll notes) :=
  ⟨h.queue, h.medium, congrArg (notes.reverse ++ ·) h.journal⟩

theorem happen {e e' : Event} (h : w.Alike w') (alike : Event.Alike e e') :
    (w.happen e).Alike (w'.happen e') := by
  have moved := WriteQueue.next_alike h.queue alike
  unfold Writer.happen
  generalize w.queue.next e = next at moved
  generalize w'.queue.next e' = next' at moved
  cases moved with
  | none => exact h
  | @some next next' moves =>
    obtain ⟨queue, effect⟩ := next
    obtain ⟨queue', effect'⟩ := next'
    obtain ⟨queues, effects⟩ := moves
    cases effects with
    | mk => exact ⟨queues, h.medium, congrArg (_ ++ ·) h.journal⟩

theorem land {write write' : Write} {ending : Option MediumFault → Event} (h : w.Alike w')
    (alike : write.Alike write') (ends : ∀ fault? write, ending fault? ≠ .submit write) :
    (w.land write ending).Alike (w'.land write' ending) := by
  cases alike with
  | mk visible visible' texts =>
    obtain ⟨ended, medium, notes⟩ := DiscreetMedium.writes h.medium visible visible' texts
    unfold Writer.land
    dsimp only
    rw [ended, notes]
    refine Alike.happen ?_ (.same (ends _))
    exact ⟨h.queue, medium, congrArg (_ ++ ·) h.journal⟩

theorem advanceJobs (h : w.Alike w') (c : Conditions) (x : Executor) :
    Option.Rel Alike (w.advanceJobs? c x) (w'.advanceJobs? c x) := by
  have jobs := h.queue.jobsOf x
  unfold Writer.advanceJobs?
  generalize w.queue.jobsOf x = js at jobs
  generalize w'.queue.jobsOf x = js' at jobs
  cases jobs with
  | nil => exact .none
  | cons first rest =>
    cases first with
    | @mk _ _ begun alike =>
      cases begun with
      | false => exact .some (h.happen (.same nofun))
      | true =>
        dsimp only
        split
        · exact .none
        · exact .some (h.land alike nofun)

theorem advanceWorker (h : w.Alike w') (c : Conditions) :
    Option.Rel Alike (w.advanceWorker? c) (w'.advanceWorker? c) := by
  have worker := h.queue.worker
  have moves (e : Event) (internal : IsInternal e) :
      Option.Rel Alike (some (w.happen e)) (some (w'.happen e)) := by
    refine .some (h.happen (.same ?_))
    rintro write rfl
    exact internal
  unfold Writer.advanceWorker?
  generalize w.queue.worker = doing at worker
  generalize w'.queue.worker = doing' at worker
  cases worker with
  | absent => exact .none
  | holding => exact moves .hand trivial
  | writing alike => exact .some (h.land alike nofun)
  | waiting =>
    dsimp only
    split
    · exact moves .abandon trivial
    · exact .none
  | retiring jobs =>
    cases jobs with
    | nil => exact moves .retired trivial
    | cons => exact .none
  | ready =>
    dsimp only
    rw [h.queue.pending_isEmpty, h.queue.stopping_eq, h.queue.executor_isSome]
    split
    · exact moves .pop trivial
    · split
      · exact .none
      · split
        · exact moves .retire trivial
        · exact moves .exit trivial

theorem advance (h : w.Alike w') (c : Conditions) :
    Option.Rel Alike (w.advance? c) (w'.advance? c) :=
  rel_or (h.advanceJobs c .retired) (rel_or (h.advanceJobs c .current) (h.advanceWorker c))

theorem run (h : w.Alike w') (c : Conditions) (fuel : Nat) : (w.run c fuel).Alike (w'.run c fuel) := by
  induction fuel generalizing w w' with
  | zero => exact h
  | succ fuel ih =>
    have advanced := h.advance c
    unfold Writer.run
    generalize w.advance? c = next at advanced
    generalize w'.advance? c = next' at advanced
    cases advanced with
    | none => exact h
    | some alike => exact ih alike

theorem stepBound_eq (h : w.Alike w') : w.stepBound = w'.stepBound := by
  have pending := h.queue.pending.length_eq
  have retired := (h.queue.jobsOf .retired).length_eq
  have current := (h.queue.jobsOf .current).length_eq
  simp only [stepBound, WriteQueue.jobs, List.length_append, pending, retired, current]

theorem settle (h : w.Alike w') (c : Conditions) : (w.settle c).Alike (w'.settle c) := by
  unfold Writer.settle
  rw [h.stepBound_eq]
  exact h.run c _

theorem submit {write write' : Write} (h : w.Alike w') (alike : write.Alike write') :
    (w.submit write).Alike (w'.submit write') := by
  have submitted : (w.happen (.submit write)).Alike (w'.happen (.submit write')) :=
    h.happen (.submit alike)
  have inline := submitted.queue.inline
  unfold Writer.submit
  dsimp only
  generalize (w.happen (.submit write)).queue.inline? = inline? at inline
  generalize (w'.happen (.submit write')).queue.inline? = inline'? at inline
  cases inline with
  | none => exact submitted
  | some alike => exact submitted.land alike nofun

theorem start (h : w.Alike w') : w.start.Alike w'.start :=
  h.happen (.same nofun)

theorem stop (h : w.Alike w') (limit : Value) (c : Conditions) :
    (w.stop limit c).Alike (w'.stop limit c) := by
  have settled := (h.happen (.same nofun : Event.Alike .stop .stop)).settle c
  unfold Writer.stop
  rw [h.queue.isRunning]
  split
  · dsimp only
    rw [settled.queue.isRunning]
    exact settled.note _
  · exact h

theorem work (h : w.Alike w') (work : Work) : (w.work work).Alike (w'.work work) := by
  cases work with
  | move e internal =>
    refine h.happen (.same ?_)
    rintro write rfl
    exact internal
  | finish x =>
    have jobs := h.queue.jobsOf x
    unfold Writer.work
    dsimp only
    generalize w.queue.jobsOf x = js at jobs
    generalize w'.queue.jobsOf x = js' at jobs
    cases jobs with
    | nil => exact h
    | cons first rest =>
      cases first with
      | @mk _ _ begun alike =>
        cases begun with
        | false => exact h
        | true => exact h.land alike nofun
  | endDirect =>
    have worker := h.queue.worker
    unfold Writer.work
    dsimp only
    generalize w.queue.worker = doing at worker
    generalize w'.queue.worker = doing' at worker
    cases worker with
    | writing alike => exact h.land alike nofun
    | _ => exact h

theorem workAll (h : w.Alike w') (works : List Work) :
    (w.workAll works).Alike (w'.workAll works) := by
  induction works generalizing w w' with
  | nil => exact h
  | cons work works ih => exact ih (h.work work)

theorem stopAmid (h : w.Alike w') (limit : Value) (works : List Work) :
    (w.stopAmid limit works).Alike (w'.stopAmid limit works) := by
  have worked := (h.happen (.same nofun : Event.Alike .stop .stop)).workAll works
  unfold Writer.stopAmid
  rw [h.queue.isRunning]
  split
  · dsimp only
    rw [worked.queue.isRunning]
    exact worked.note _
  · exact h

end Alike

end Writer

end ControlPanel
