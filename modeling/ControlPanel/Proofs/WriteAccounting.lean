import ControlPanel.Proofs.WriteOrder
import ControlPanel.Writer

/-!
# The account of writes

A ledger keeps one entry for every write submitted to a queue and follows it from event to event:
pending, held by the worker, handed on and awaited, recorded as completed or failed, or replaced
while pending. What the queue holds and counts is always what the ledger says, so no write is lost
or counted twice. Once nothing is left and none has failed, the medium holds what the same writes
would have left on it if they had been made one by one.
-/
namespace ControlPanel.WriteQueue

/-- What has become of a submitted write. A write is awaited from when an executor or the medium
has it until its outcome is recorded. -/
inductive Fate where
  | pending
  | held
  | awaited
  | completed
  | failed
  | replaced
  deriving DecidableEq, Repr

def Fate.recorded : Bool → Fate
  | true => .completed
  | false => .failed

def Fate.isHanded : Fate → Bool
  | .awaited => true
  | .completed => true
  | .failed => true
  | _ => false

structure Entry where
  write : Write
  fate : Fate
  deriving DecidableEq, Repr

abbrev Ledger := List Entry

namespace Ledger

def withFate (f : Fate) (l : Ledger) : List Write :=
  (l.filter fun e => e.fate = f).map Entry.write

def handed (l : Ledger) : List Write :=
  (l.filter fun e => e.fate.isHanded).map Entry.write

def revise (rule : Entry → Fate) (l : Ledger) : Ledger :=
  l.map fun e => ⟨e.write, rule e⟩

def turn (before after : Fate) : Ledger → Ledger :=
  revise fun e => if e.fate = before then after else e.fate

def replace (key : String) : Ledger → Ledger :=
  revise fun e => if e.fate = .pending ∧ e.write.key = key then .replaced else e.fate

def take : Ledger → Ledger
  | [] => []
  | e :: rest => if e.fate = .pending then ⟨e.write, .held⟩ :: rest else e :: take rest

/-- The ledger after an event. Only the outcome of the job that the worker waits for is recorded. -/
def after (q : WriteQueue) (l : Ledger) : Event → Ledger
  | .submit w =>
    if q.isRunning then l.replace w.key ++ [⟨w, .pending⟩] else l ++ [⟨w, .awaited⟩]
  | .pop => l.take
  | .hand => l.turn .held .awaited
  | .endInline fault? => l.turn .awaited (.recorded fault?.isNone)
  | .endDirect fault? => l.turn .awaited (.recorded fault?.isNone)
  | .finish .current fault? =>
    match q.worker, q.jobsOf .current with
    | .waiting _ _, [_] => l.turn .awaited (.recorded fault?.isNone)
    | _, _ => l
  | .abandon => l.turn .awaited (.recorded false)
  | _ => l

def Superseded : Ledger → Prop
  | [] => True
  | e :: rest =>
    (e.fate = .replaced → ∃ later ∈ rest, later.write.key = e.write.key) ∧ Superseded rest

@[simp]
theorem writes_revise (rule : Entry → Fate) (l : Ledger) :
    (l.revise rule).map Entry.write = l.map Entry.write := by
  simp [revise]

theorem withFate_revise (rule : Entry → Fate) (f : Fate) (l : Ledger) :
    (l.revise rule).withFate f = (l.filter fun e => rule e = f).map Entry.write := by
  simp [withFate, revise, List.filter_map, Function.comp_def]

theorem handed_revise {rule : Entry → Fate} (l : Ledger)
    (same : ∀ e, (rule e).isHanded = e.fate.isHanded) : (l.revise rule).handed = l.handed := by
  simp [handed, revise, List.filter_map, Function.comp_def, same]

theorem withFate_append (f : Fate) (l k : Ledger) :
    withFate f (l ++ k) = withFate f l ++ withFate f k := by
  simp [withFate]

theorem handed_append (l k : Ledger) : handed (l ++ k) = handed l ++ handed k := by
  simp [handed]

theorem withFate_turn_of_ne {before after f : Fate} (l : Ledger) (hb : f ≠ before)
    (ha : f ≠ after) : (l.turn before after).withFate f = l.withFate f := by
  rw [turn, withFate_revise, withFate]
  congr 1
  refine List.filter_congr fun e _ => ?_
  by_cases h : e.fate = before
  · simp [h, Ne.symm hb, Ne.symm ha]
  · simp [h]

theorem withFate_turn_before {before after : Fate} (l : Ledger) (h : before ≠ after) :
    (l.turn before after).withFate before = [] := by
  rw [turn, withFate_revise]
  simp only [List.map_eq_nil_iff, List.filter_eq_nil_iff]
  intro e _
  by_cases he : e.fate = before <;> simp [he, Ne.symm h]

/-- Two disjoint sorts of entries, taken together. -/
theorem filter_or_perm (l : Ledger) {p r : Entry → Bool} (apart : ∀ e, p e → r e = false) :
    (l.filter fun e => p e || r e).Perm (l.filter p ++ l.filter r) := by
  have split := List.filter_append_perm p (l.filter fun e => p e || r e)
  rw [List.filter_filter, List.filter_filter] at split
  refine split.symm.trans (.of_eq (congr_arg₂ _ ?_ ?_))
  · refine List.filter_congr fun e _ => ?_
    cases p e <;> simp
  · refine List.filter_congr fun e _ => ?_
    cases h : p e
    · simp
    · simp [apart e h]

theorem withFate_turn_after {before after : Fate} (l : Ledger) (h : before ≠ after) :
    ((l.turn before after).withFate after).Perm (l.withFate before ++ l.withFate after) := by
  have both := filter_or_perm l (p := fun e => e.fate = before) (r := fun e => e.fate = after)
    fun e he => by simpa using fun ha => h (by rw [← of_decide_eq_true he, ha])
  rw [turn, withFate_revise, withFate, withFate, ← List.map_append]
  refine (List.Perm.of_eq ?_).trans (both.map _)
  congr 1
  refine List.filter_congr fun e _ => ?_
  by_cases he : e.fate = before <;> simp [he]

theorem handed_turn_held (l : Ledger) :
    (l.turn .held .awaited).handed.Perm (l.handed ++ l.withFate .held) := by
  have both := filter_or_perm l (p := fun e => e.fate.isHanded) (r := fun e => e.fate = .held)
    fun e he => by cases hf : e.fate <;> simp_all [Fate.isHanded]
  rw [handed, handed, withFate, ← List.map_append]
  refine (List.Perm.of_eq ?_).trans (both.map _)
  simp only [turn, revise, List.filter_map, List.map_map]
  congr 1
  refine List.filter_congr fun e _ => ?_
  cases hf : e.fate <;> simp [hf, Fate.isHanded]

theorem handed_turn_recorded (l : Ledger) (landed : Bool) :
    (l.turn .awaited (.recorded landed)).handed = l.handed := by
  refine handed_revise l fun e => ?_
  by_cases he : e.fate = .awaited
  · cases landed <;> simp [he, Fate.recorded, Fate.isHanded]
  · simp [he]

theorem withFate_replace_of_ne {f : Fate} (key : String) (l : Ledger) (hp : f ≠ .pending)
    (hr : f ≠ .replaced) : (l.replace key).withFate f = l.withFate f := by
  rw [replace, withFate_revise, withFate]
  congr 1
  refine List.filter_congr fun e _ => ?_
  by_cases h : e.fate = .pending ∧ e.write.key = key
  · simp [h, Ne.symm hp, Ne.symm hr]
  · simp [h]

theorem withFate_replace_pending (key : String) (l : Ledger) :
    (l.replace key).withFate .pending = (l.withFate .pending).filter fun old => old.key ≠ key := by
  rw [replace, withFate_revise, withFate, List.filter_map, List.filter_filter]
  congr 1
  refine List.filter_congr fun e _ => ?_
  by_cases hp : e.fate = .pending <;> by_cases hk : e.write.key = key <;> simp [hp, hk]

theorem handed_replace (key : String) (l : Ledger) : (l.replace key).handed = l.handed := by
  refine handed_revise l fun e => ?_
  by_cases h : e.fate = .pending ∧ e.write.key = key
  · simp [h, Fate.isHanded]
  · simp [h]

@[simp]
theorem writes_take (l : Ledger) : l.take.map Entry.write = l.map Entry.write := by
  induction l with
  | nil => rfl
  | cons e rest ih =>
    simp only [take]
    split <;> simp [ih]

@[simp]
theorem withFate_nil (f : Fate) : withFate f [] = [] := rfl

theorem withFate_cons (f : Fate) (e : Entry) (rest : Ledger) :
    withFate f (e :: rest) = (if e.fate = f then [e.write] else []) ++ withFate f rest := by
  by_cases h : e.fate = f <;> simp [withFate, h]

theorem handed_cons (e : Entry) (rest : Ledger) :
    handed (e :: rest) = (if e.fate.isHanded then [e.write] else []) ++ handed rest := by
  by_cases h : e.fate.isHanded <;> simp [handed, h]

theorem withFate_take_of_ne {f : Fate} (l : Ledger) (hp : f ≠ .pending) (hh : f ≠ .held) :
    l.take.withFate f = l.withFate f := by
  induction l with
  | nil => rfl
  | cons e rest ih =>
    simp only [take]
    split
    · rename_i pending
      simp [withFate_cons, pending, Ne.symm hp, Ne.symm hh]
    · simp only [withFate_cons, ih]

theorem withFate_take_pending (l : Ledger) :
    l.take.withFate .pending = (l.withFate .pending).tail := by
  induction l with
  | nil => rfl
  | cons e rest ih =>
    simp only [take]
    split
    · rename_i pending
      simp [withFate_cons, pending]
    · rename_i settled
      simp [withFate_cons, settled, ih]

theorem withFate_take_held {l : Ledger} (free : l.withFate .held = []) :
    l.take.withFate .held = (l.withFate .pending).head?.toList := by
  induction l with
  | nil => rfl
  | cons e rest ih =>
    simp only [withFate_cons, List.append_eq_nil_iff] at free
    simp only [take]
    split
    · rename_i pending
      simp [withFate_cons, pending, free.2]
    · rename_i settled
      rw [withFate_cons, free.1, ih free.2]
      simp [withFate_cons, settled]

theorem handed_take (l : Ledger) : l.take.handed = l.handed := by
  induction l with
  | nil => rfl
  | cons e rest ih =>
    simp only [take]
    split
    · rename_i pending
      simp [handed_cons, pending, Fate.isHanded]
    · rw [handed_cons, handed_cons, ih]

/-- A ledger stays superseded when what newly counts as replaced has its successor in what is
added. -/
theorem superseded_revise_append {rule : Entry → Fate} {l : Ledger} (new : Ledger)
    (h : Superseded l) (fresh : Superseded new)
    (later : ∀ e ∈ l, rule e = .replaced →
      e.fate = .replaced ∨ ∃ n ∈ new, n.write.key = e.write.key) :
    Superseded (l.revise rule ++ new) := by
  induction l with
  | nil => exact fresh
  | cons e rest ih =>
    refine ⟨fun replaced => ?_, ih h.2 fun e' he' => later e' (List.mem_cons_of_mem _ he')⟩
    rcases later e List.mem_cons_self replaced with old | ⟨n, hn, same⟩
    · obtain ⟨next, hnext, same⟩ := h.1 old
      exact ⟨⟨next.write, rule next⟩,
        List.mem_append_left _ (List.mem_map_of_mem hnext), same⟩
    · exact ⟨n, List.mem_append_right _ hn, same⟩

theorem superseded_append {l k : Ledger} (h : Superseded l) (hk : Superseded k) :
    Superseded (l ++ k) := by
  induction l with
  | nil => exact hk
  | cons e rest ih =>
    refine ⟨fun replaced => ?_, ih h.2⟩
    obtain ⟨next, hnext, same⟩ := h.1 replaced
    exact ⟨next, List.mem_append_left _ hnext, same⟩

theorem superseded_revise {rule : Entry → Fate} {l : Ledger} (h : Superseded l)
    (old : ∀ e, rule e = .replaced → e.fate = .replaced) : Superseded (l.revise rule) := by
  have whole := superseded_revise_append [] h trivial fun e _ he => .inl (old e he)
  rwa [List.append_nil] at whole

theorem superseded_turn {before after : Fate} {l : Ledger} (h : Superseded l)
    (live : after ≠ .replaced) : Superseded (l.turn before after) := by
  refine superseded_revise h fun e he => ?_
  split at he
  · exact absurd he live
  · exact he

theorem superseded_replace {l : Ledger} (w : Write) (h : Superseded l) :
    Superseded (l.replace w.key ++ [⟨w, .pending⟩]) := by
  refine superseded_revise_append _ h ⟨by simp, trivial⟩ fun e _ he => ?_
  split at he
  · rename_i replaced
    exact .inr ⟨_, List.mem_singleton_self _, replaced.2.symm⟩
  · exact .inl he

theorem superseded_take {l : Ledger} (h : Superseded l) : Superseded l.take := by
  induction l with
  | nil => trivial
  | cons e rest ih =>
    simp only [take]
    split
    · exact ⟨by simp, h.2⟩
    · refine ⟨fun replaced => ?_, ih h.2⟩
      obtain ⟨next, hnext, same⟩ := h.1 replaced
      have kept : next.write ∈ (take rest).map Entry.write := by
        rw [writes_take]
        exact List.mem_map_of_mem hnext
      obtain ⟨next', hnext', hw⟩ := List.mem_map.mp kept
      exact ⟨next', hnext', by rw [hw, same]⟩

end Ledger

def awaited (q : WriteQueue) : List Write :=
  q.inline?.toList ++
    match q.worker with
    | .waiting w _ => [w]
    | .writing w => [w]
    | _ => []

/-- The queue holds and counts what the ledger of its writes says. -/
structure Balanced (l : Ledger) (submitted begun : List Write) (q : WriteQueue) : Prop where
  submitted : l.map Entry.write = submitted
  pending : l.withFate .pending = q.pending
  held : l.withFate .held = q.held
  awaited : l.withFate .awaited = q.awaited
  handed : l.handed.Perm (begun ++ q.unbegun)
  completed : (l.withFate .completed).length = q.completed
  failed : (l.withFate .failed).length = q.failed
  superseded : l.Superseded

theorem initial_balanced (timeout : Value) : Balanced [] [] [] (initial timeout) := by
  constructor <;> first | rfl | exact .refl _ | trivial

theorem recorded_ne {f : Fate} (landed : Bool) (hc : f ≠ .completed) (hf : f ≠ .failed) :
    f ≠ .recorded landed := by
  cases landed
  · exact hf
  · exact hc

/-- A recorded outcome is counted once, under what it was. -/
theorem withFate_turn_recorded {l : Ledger} {w : Write} (one : l.withFate .awaited = [w])
    (landed : Bool) :
    ((l.turn .awaited (.recorded landed)).withFate .completed).length =
        (l.withFate .completed).length + landed.toNat ∧
      ((l.turn .awaited (.recorded landed)).withFate .failed).length =
        (l.withFate .failed).length + (!landed).toNat := by
  cases landed with
  | false =>
    have apart : Fate.awaited ≠ .failed := by decide
    have grown := (Ledger.withFate_turn_after l apart).length_eq
    rw [List.length_append, one] at grown
    refine ⟨?_, grown.trans (Nat.add_comm _ _)⟩
    rw [Fate.recorded, Ledger.withFate_turn_of_ne l (by decide) (by decide)]
    rfl
  | true =>
    have apart : Fate.awaited ≠ .completed := by decide
    have grown := (Ledger.withFate_turn_after l apart).length_eq
    rw [List.length_append, one] at grown
    refine ⟨grown.trans (Nat.add_comm _ _), ?_⟩
    rw [Fate.recorded, Ledger.withFate_turn_of_ne l (by decide) (by decide)]
    rfl

theorem balanced_record {l : Ledger} {submitted begun : List Write} {q q' : WriteQueue}
    {w : Write} {landed : Bool} (bal : Balanced l submitted begun q) (busy : q.awaited = [w])
    (pending : q'.pending = q.pending) (held : q'.held = q.held) (idle : q'.awaited = [])
    (unbegun : q'.unbegun = q.unbegun)
    (completed : q'.completed = q.completed + landed.toNat)
    (failed : q'.failed = q.failed + (!landed).toNat) :
    Balanced (l.turn .awaited (.recorded landed)) submitted begun q' := by
  obtain ⟨more_completed, more_failed⟩ := withFate_turn_recorded (bal.awaited.trans busy) landed
  refine ⟨?_, ?_, ?_, ?_, ?_, ?_, ?_, ?_⟩
  · rw [← bal.submitted]
    exact Ledger.writes_revise ..
  · rw [Ledger.withFate_turn_of_ne l (by decide) (recorded_ne landed (by decide) (by decide)),
      bal.pending, pending]
  · rw [Ledger.withFate_turn_of_ne l (by decide) (recorded_ne landed (by decide) (by decide)),
      bal.held, held]
  · rw [Ledger.withFate_turn_before l (recorded_ne landed (by decide) (by decide)), idle]
  · rw [Ledger.handed_turn_recorded, unbegun]
    exact bal.handed
  · rw [more_completed, bal.completed, completed]
  · rw [more_failed, bal.failed, failed]
  · exact Ledger.superseded_turn bal.superseded (recorded_ne landed (by decide) (by decide)).symm

/-- Where nothing that the balance mentions changes, it stays. -/
theorem balanced_still {l : Ledger} {submitted begun : List Write} {q q' : WriteQueue}
    (bal : Balanced l submitted begun q) (pending : q'.pending = q.pending)
    (held : q'.held = q.held) (awaited : q'.awaited = q.awaited) (unbegun : q'.unbegun = q.unbegun)
    (completed : q'.completed = q.completed) (failed : q'.failed = q.failed) :
    Balanced l submitted begun q' :=
  ⟨bal.submitted, by rw [bal.pending, pending], by rw [bal.held, held],
    by rw [bal.awaited, awaited], by rw [unbegun]; exact bal.handed,
    by rw [bal.completed, completed], by rw [bal.failed, failed], bal.superseded⟩

/-- The worker hands on the write that it holds. -/
theorem balanced_hand {l : Ledger} {submitted begun begun' : List Write} {q q' : WriteQueue}
    {w : Write} (bal : Balanced l submitted begun q) (holding : q.worker = .holding w)
    (idle : q.inline? = none) (pending : q'.pending = q.pending) (free : q'.held = [])
    (busy : q'.awaited = [w]) (unbegun : begun' ++ q'.unbegun = begun ++ q.unbegun ++ [w])
    (completed : q'.completed = q.completed) (failed : q'.failed = q.failed) :
    Balanced (l.turn .held .awaited) submitted begun' q' := by
  have one : l.withFate .held = [w] := by simp [bal.held, held, holding]
  have none_awaited : l.withFate .awaited = [] := by simp [bal.awaited, awaited, holding, idle]
  refine ⟨?_, ?_, ?_, ?_, ?_, ?_, ?_, Ledger.superseded_turn bal.superseded (by decide)⟩
  · rw [← bal.submitted]
    exact Ledger.writes_revise ..
  · rw [Ledger.withFate_turn_of_ne l (by decide) (by decide), bal.pending, pending]
  · rw [Ledger.withFate_turn_before l (by decide), free]
  · have apart : Fate.held ≠ .awaited := by decide
    have turned := Ledger.withFate_turn_after l apart
    rw [one, none_awaited] at turned
    rw [turned.eq_singleton, busy]
  · have more := Ledger.handed_turn_held l
    rw [one] at more
    rw [unbegun]
    exact more.trans (bal.handed.append_right _)
  · rw [Ledger.withFate_turn_of_ne l (by decide) (by decide), bal.completed, completed]
  · rw [Ledger.withFate_turn_of_ne l (by decide) (by decide), bal.failed, failed]

/-- A write is queued, and replaces what is pending for its key. -/
theorem balanced_queue {l : Ledger} {submitted begun : List Write} {q : WriteQueue}
    (bal : Balanced l submitted begun q) (w : Write) :
    Balanced (l.replace w.key ++ [⟨w, .pending⟩]) (submitted ++ [w]) begun
      { q with pending := enqueue w q.pending } := by
  have kept : ∀ f : Fate, f ≠ .pending → f ≠ .replaced →
      Ledger.withFate f (l.replace w.key ++ [⟨w, .pending⟩]) = l.withFate f := fun f hp hr => by
    rw [Ledger.withFate_append, Ledger.withFate_replace_of_ne _ _ hp hr, Ledger.withFate_cons,
      if_neg (Ne.symm hp)]
    simp
  refine ⟨?_, ?_, ?_, ?_, ?_, ?_, ?_, Ledger.superseded_replace w bal.superseded⟩
  · simp [Ledger.replace, bal.submitted]
  · rw [Ledger.withFate_append, Ledger.withFate_replace_pending, bal.pending]
    rfl
  · rw [kept .held (by decide) (by decide), bal.held]
    rfl
  · rw [kept .awaited (by decide) (by decide), bal.awaited]
    rfl
  · rw [Ledger.handed_append, Ledger.handed_replace]
    exact (List.append_nil _).symm ▸ bal.handed
  · rw [kept .completed (by decide) (by decide), bal.completed]
  · rw [kept .failed (by decide) (by decide), bal.failed]

/-- Without a worker, the submitter makes the write. -/
theorem balanced_inline {l : Ledger} {submitted begun : List Write} {q : WriteQueue}
    (bal : Balanced l submitted begun q) (idle : q.inline? = none) (gone : q.worker = .absent)
    (unbegun : q.unbegun = []) (w : Write) :
    Balanced (l ++ [⟨w, .awaited⟩]) (submitted ++ [w]) (begun ++ [w])
      { q with inline? := some w } := by
  refine ⟨?_, ?_, ?_, ?_, ?_, ?_, ?_, Ledger.superseded_append bal.superseded ⟨by simp, trivial⟩⟩
  · simp [bal.submitted]
  · simp [Ledger.withFate_append, Ledger.withFate_cons, bal.pending]
  · simp [Ledger.withFate_append, Ledger.withFate_cons, bal.held, held]
  · simp [Ledger.withFate_append, Ledger.withFate_cons, bal.awaited, awaited, idle, gone]
  · have same := bal.handed
    rw [unbegun, List.append_nil] at same
    have none_left : { q with inline? := some w }.unbegun = [] := unbegun
    rw [Ledger.handed_append, none_left, List.append_nil]
    exact same.append_right [w]
  · simp [Ledger.withFate_append, Ledger.withFate_cons, bal.completed]
  · simp [Ledger.withFate_append, Ledger.withFate_cons, bal.failed]

/-- The worker takes the oldest pending write. -/
theorem balanced_take {l : Ledger} {submitted begun : List Write} {q : WriteQueue} {w : Write}
    {rest : List Write} (bal : Balanced l submitted begun q) (ready : q.worker = .ready)
    (pending : q.pending = w :: rest) :
    Balanced l.take submitted begun { q with worker := .holding w, pending := rest } := by
  have free : l.withFate .held = [] := by simp [bal.held, held, ready]
  refine ⟨?_, ?_, ?_, ?_, ?_, ?_, ?_, Ledger.superseded_take bal.superseded⟩
  · rw [Ledger.writes_take, bal.submitted]
  · rw [Ledger.withFate_take_pending, bal.pending, pending]
    rfl
  · rw [Ledger.withFate_take_held free, bal.pending, pending]
    rfl
  · rw [Ledger.withFate_take_of_ne l (by decide) (by decide), bal.awaited]
    simp [awaited, ready]
  · rw [Ledger.handed_take]
    refine bal.handed.trans (.of_eq ?_)
    simp [unbegun, jobsOf, ready]
  · rw [Ledger.withFate_take_of_ne l (by decide) (by decide), bal.completed]
  · rw [Ledger.withFate_take_of_ne l (by decide) (by decide), bal.failed]

theorem awaited_of_isInFlight_eq_false {q : WriteQueue} (h : q.isInFlight = false) :
    q.awaited = q.inline?.toList := by
  unfold awaited
  split <;> simp_all [isInFlight]

@[simp]
theorem setJobs_completed (q : WriteQueue) (jobs : List Job) (x : Executor) :
    (q.setJobs jobs x).completed = q.completed := by
  cases x <;> rfl

@[simp]
theorem setJobs_failed (q : WriteQueue) (jobs : List Job) (x : Executor) :
    (q.setJobs jobs x).failed = q.failed := by
  cases x <;> rfl

theorem setJobs_awaited {q : WriteQueue} {x : Executor} {j : Job} {rest : List Job}
    (h : q.jobsOf x = j :: rest) (jobs : List Job) : (q.setJobs jobs x).awaited = q.awaited := by
  cases x with
  | current => rfl
  | retired => simp [awaited, setJobs, worker_of_jobsOf h]

/-- An executor goes on with its jobs, and what it was given has begun or is still to begin. -/
theorem balanced_setJobs {l : Ledger} {submitted begun begun' : List Write} {q : WriteQueue}
    {x : Executor} {j : Job} {rest : List Job} (inv : Invariant q)
    (bal : Balanced l submitted begun q) (h : q.jobsOf x = j :: rest) {jobs : List Job}
    (given : begun ++ writesOf false (j :: rest) = begun' ++ writesOf false jobs) :
    Balanced l submitted begun' (q.setJobs jobs x) := by
  refine ⟨bal.submitted, ?_, ?_, ?_, ?_, ?_, ?_, bal.superseded⟩
  · rw [bal.pending, setJobs_pending]
  · rw [bal.held, setJobs_held h]
  · rw [bal.awaited, setJobs_awaited h]
  · rw [unbegun_setJobs inv h, ← given, ← unbegun_of_job inv h]
    exact bal.handed
  · rw [bal.completed, setJobs_completed]
  · rw [bal.failed, setJobs_failed]

theorem step_preserves_balance {l : Ledger} {submitted begun : List Write} {q q' : WriteQueue}
    {e : Event} {begun? : Option Write} (inv : Invariant q)
    (bal : Balanced l submitted begun q) (step : Step q e q' begun?) :
    Balanced (l.after q e) (submitted ++ submittedBy e) (begun ++ begun?.toList) q' := by
  cases step with
  | queue w idle running =>
    simp only [Ledger.after, if_pos ((isRunning_iff q).mpr running), Option.toList_none,
      List.append_nil, submittedBy]
    exact balanced_queue bal w
  | inline w idle gone =>
    have executor := (inv.absent gone).2
    have waiting : q.unbegun = [] := by simp [unbegun, jobsOf, gone, executor]
    simp only [Ledger.after, (isRunning_eq_false_iff q).mpr gone, Bool.false_eq_true, if_false,
      Option.toList_some, submittedBy]
    exact balanced_inline bal idle gone waiting w
  | endInline w fault? error? busy =>
    obtain ⟨-, -, calm⟩ := inv.inline (by simp [busy])
    have one := awaited_of_isInFlight_eq_false calm
    simp only [Ledger.after, Option.toList_none, List.append_nil, submittedBy]
    exact balanced_record (w := w) bal (one.trans (by simp [busy])) rfl rfl
      (awaited_of_isInFlight_eq_false (q := { q with inline? := none }) calm) rfl rfl rfl
  | restart running =>
    simp only [Ledger.after, Option.toList_none, List.append_nil, submittedBy]
    exact balanced_still bal rfl rfl rfl (by simp [unbegun, jobsOf]) rfl rfl
  | start gone =>
    simp only [Ledger.after, Option.toList_none, List.append_nil, submittedBy]
    refine balanced_still bal rfl ?_ ?_ ?_ rfl rfl
    all_goals simp [held, awaited, unbegun, jobsOf, gone]
  | stop =>
    simp only [Ledger.after, Option.toList_none, List.append_nil, submittedBy]
    exact balanced_still bal rfl rfl rfl rfl rfl rfl
  | stopAbsent gone =>
    simpa [Ledger.after, submittedBy] using bal
  | pop w rest ready pending =>
    simp only [Ledger.after, Option.toList_none, List.append_nil, submittedBy]
    exact balanced_take bal ready pending
  | hand w jobs holding executor =>
    have idle := inline_eq_none_of_isInFlight inv (by simp [isInFlight, holding])
    simp only [Ledger.after, Option.toList_none, List.append_nil, submittedBy]
    refine balanced_hand bal holding idle rfl rfl ?_ ?_ rfl rfl
    · simp [awaited, idle]
    · simp [unbegun, jobsOf, holding, executor, writesOf_append, writesOf_cons]
  | handDirect w holding executor =>
    have idle := inline_eq_none_of_isInFlight inv (by simp [isInFlight, holding])
    simp only [Ledger.after, Option.toList_some, List.append_nil, submittedBy]
    refine balanced_hand bal holding idle rfl rfl ?_ ?_ rfl rfl
    · simp [awaited, idle]
    · simp [unbegun, jobsOf, holding, executor]
  | begin x w rest jobs =>
    simp only [Ledger.after, Option.toList_some, List.append_nil, submittedBy]
    exact balanced_setJobs inv bal jobs (by simp [writesOf_cons])
  | finish x w rest fault? jobs unawaited =>
    have still : l.after q (.finish x fault?) = l := by
      cases x with
      | retired => rfl
      | current =>
        simp only [Ledger.after]
        split
        · rename_i v limit j waiting single
          rw [single] at jobs
          exact absurd (List.cons.inj jobs).2.symm (unawaited v limit waiting)
        · rfl
    simp only [still, Option.toList_none, List.append_nil, submittedBy]
    exact balanced_setJobs inv bal jobs (by simp [writesOf_cons])
  | finishAwaited w v limit fault? error? jobs waited =>
    have idle := inline_eq_none_of_job inv jobs
    have executor := executor_of_jobsOf jobs
    simp only [Ledger.after, waited, jobs, Option.toList_none, List.append_nil, submittedBy]
    refine balanced_record bal (w := v) ?_ rfl ?_ ?_ ?_ rfl rfl
    all_goals simp [held, awaited, unbegun, jobsOf, waited, executor, idle, count, writesOf_cons]
  | endDirect w fault? error? made =>
    have idle := inline_eq_none_of_isInFlight inv (by simp [isInFlight, made])
    simp only [Ledger.after, Option.toList_none, List.append_nil, submittedBy]
    refine balanced_record bal (w := w) ?_ rfl ?_ ?_ ?_ rfl rfl
    all_goals simp [held, awaited, unbegun, jobsOf, made, idle, count]
  | abandon w limit error? waited =>
    have idle := inline_eq_none_of_isInFlight inv (by simp [isInFlight, waited])
    simp only [Ledger.after, Option.toList_none, List.append_nil, submittedBy]
    refine balanced_record bal (w := w) ?_ rfl ?_ ?_ ?_ rfl rfl
    all_goals simp [held, awaited, unbegun, jobsOf, waited, idle, count]
  | retire jobs ready pending executor stopping =>
    simp only [Ledger.after, Option.toList_none, List.append_nil, submittedBy]
    refine balanced_still bal rfl ?_ ?_ ?_ rfl rfl
    all_goals simp [held, awaited, unbegun, jobsOf, ready, executor]
  | retired waited =>
    simp only [Ledger.after, Option.toList_none, List.append_nil, submittedBy]
    refine balanced_still bal rfl ?_ ?_ ?_ rfl rfl
    all_goals simp [held, awaited, unbegun, jobsOf, waited]
  | exit ready pending executor stopping =>
    simp only [Ledger.after, Option.toList_none, List.append_nil, submittedBy]
    refine balanced_still bal rfl ?_ ?_ ?_ rfl rfl
    all_goals simp [held, awaited, unbegun, jobsOf, ready]

def Trace.ledger (t : Trace) : Ledger :=
  t.foldl (fun l m => l.after m.queue m.event) []

theorem execution_balanced {timeout : Value} {t : Trace} {q : WriteQueue}
    (run : Execution timeout t q) : Balanced t.ledger t.submitted t.begun q := by
  induction run with
  | start => exact initial_balanced timeout
  | @next t q e q' effect run h ih =>
    have moved := step_preserves_balance (execution_invariant run) ih (step_of_next h)
    simpa [Trace.ledger, Trace.submitted, Trace.begun] using moved

theorem Ledger.length_handed (l : Ledger) :
    l.handed.length = (l.withFate .completed).length + (l.withFate .failed).length +
      (l.withFate .awaited).length := by
  induction l with
  | nil => rfl
  | cons e rest ih =>
    obtain ⟨w, f⟩ := e
    cases f <;> simp [withFate_cons, handed_cons, Fate.isHanded] <;> omega

/-- Nothing is pending, in flight or outstanding. -/
structure Quiet (q : WriteQueue) : Prop where
  pending : q.pending = []
  calm : q.isInFlight = false
  jobs : q.jobs = []
  inline : q.inline? = none

theorem quiet_of_absent {q : WriteQueue} (inv : Invariant q) (idle : q.inline? = none)
    (gone : q.worker = .absent) : Quiet q := by
  obtain ⟨pending, executor⟩ := inv.absent gone
  refine ⟨pending, by simp [isInFlight, gone], ?_, idle⟩
  simp [jobs, jobsOf, gone, executor]

theorem awaiting_of_quiet {q : WriteQueue} (h : Quiet q) : q.awaiting = [] := by
  have free : q.held = [] := by
    have calm := h.calm
    unfold held
    split <;> simp_all [isInFlight]
  have waiting : q.unbegun = [] := by simp [unbegun, (jobs_eq_nil_iff q).mp h.jobs]
  simp [awaiting, waiting, free, h.pending]

theorem executing_of_quiet {q : WriteQueue} (h : Quiet q) : q.executing = [] := by
  simp [executing, h.inline, (jobs_eq_nil_iff q).mp h.jobs, direct_of_isInFlight_eq_false h.calm]

def newest (key : String) (ws : List Write) : Option String :=
  (ofKey key ws).getLast?.map Write.payload

theorem newest_append (key : String) (front back : List Write) :
    newest key (front ++ back) = (newest key back).or (newest key front) := by
  simp only [newest, ofKey_append, List.getLast?_append, Option.map_or]

theorem newest_singleton (key : String) (w : Write) :
    newest key [w] = if w.key = key then some w.payload else none := by
  by_cases h : w.key = key <;> simp [newest, ofKey, h]

theorem newest_cons (key : String) (w : Write) (ws : List Write) :
    newest key (w :: ws) = (newest key ws).or (if w.key = key then some w.payload else none) := by
  rw [← newest_singleton, ← newest_append, List.singleton_append]

/-- Once a queue is quiet, the newest text of a key that ended is the newest that was submitted. -/
theorem newest_ended_of_quiet {timeout : Value} {t : Trace} {q : WriteQueue}
    (run : Execution timeout t q) (quiet : Quiet q) (key : String) :
    newest key (t.ended.map Prod.fst) = newest key t.submitted := by
  have whole := (begun_then_awaiting_thinned run key).last
  have ended := begun_eq_ended_append_executing run
  rw [executing_of_quiet quiet, List.append_nil] at ended
  rw [awaiting_of_quiet quiet, List.append_nil, ended] at whole
  rw [newest, newest, whole]

section Medium

variable {μ : Type} [Medium μ]

def Keeps (view : μ → String → Option String) : Prop :=
  ∀ m key text m', Medium.write m key text = (none, m') →
    view m' = Function.update (view m) key (some text)

inductive Landed : μ → List (Write × Option MediumFault) → μ → Prop where
  | nil (m) : Landed m [] m
  | cons {m w fault? m' rest m''} : Medium.write m w.key w.payload = (fault?, m') →
      Landed m' rest m'' → Landed m ((w, fault?) :: rest) m''

theorem view_of_landed {view : μ → String → Option String} (keeps : Keeps view) {m m' : μ}
    {made : List (Write × Option MediumFault)} (landed : Landed m made m')
    (fine : ∀ e ∈ made, e.2 = none) (key : String) :
    view m' key = (newest key (made.map Prod.fst)).or (view m key) := by
  induction landed with
  | nil => rfl
  | @cons m w fault? m' rest m'' h landed ih =>
    have well : fault? = none := fine _ List.mem_cons_self
    subst well
    rw [ih fun e he => fine e (List.mem_cons_of_mem _ he), keeps _ _ _ _ h, List.map_cons,
      newest_cons, Option.or_assoc]
    by_cases same : w.key = key
    · simp [same]
    · simp [same, Function.update_of_ne (Ne.symm same)]

/-- Without a worker, a write is made at once. -/
theorem submit_inline {w : Writer μ} (gone : w.queue.worker = .absent)
    (idle : w.queue.inline? = none) (write : Write) :
    (w.submit write).queue.worker = .absent ∧ (w.submit write).queue.inline? = none ∧
      ∃ fault?, Medium.write w.medium write.key write.payload =
          (fault?, (w.submit write).medium) ∧
        (w.submit write).queue.failed = w.queue.failed + fault?.isSome.toNat := by
  have absent := (isRunning_eq_false_iff w.queue).mpr gone
  rcases made : Medium.write w.medium write.key write.payload with ⟨fault?, medium⟩
  cases fault? <;>
    simp [Writer.submit, Writer.happen, next, Writer.land, Writer.noteAll, Effect.begins, idle,
      absent, made, recordDirect, recordFailure, gone]

theorem submits_inline {w : Writer μ} (gone : w.queue.worker = .absent)
    (idle : w.queue.inline? = none) (ws : List Write) :
    ∃ made, made.map Prod.fst = ws ∧ Landed w.medium made (ws.foldl Writer.submit w).medium ∧
      (ws.foldl Writer.submit w).queue.failed =
        w.queue.failed + made.countP fun e => e.2.isSome := by
  induction ws generalizing w with
  | nil => exact ⟨[], rfl, .nil _, rfl⟩
  | cons write rest ih =>
    obtain ⟨gone', idle', fault?, made, failed⟩ := submit_inline gone idle write
    obtain ⟨others, hw, landed, total⟩ := ih gone' idle'
    refine ⟨(write, fault?) :: others, by simp [hw], .cons made landed, ?_⟩
    rw [List.foldl_cons, total, failed, List.countP_cons]
    cases fault? <;> simp +arith

end Medium

theorem lookup_insert (key text other : String) (entries : List (String × String)) :
    (MemoryMedium.insert key text entries).lookup other =
      if other = key then some text else entries.lookup other := by
  induction entries with
  | nil =>
    by_cases h : other = key <;> simp [MemoryMedium.insert, List.lookup_cons, beq_false_of_ne, h]
  | cons first rest ih =>
    obtain ⟨name, old⟩ := first
    rw [MemoryMedium.insert]
    split
    · rename_i same
      subst same
      by_cases h : other = name
      · simp [h]
      · simp [List.lookup_cons, beq_false_of_ne h, h]
    · rename_i apart
      by_cases h : other = name
      · subst h
        simp [apart]
      · simp [List.lookup_cons, beq_false_of_ne h, ih]

theorem keeps_memory : Keeps MemoryMedium.get? := by
  intro m key text m' h
  simp only [Medium.write] at h
  split at h
  · cases h
  · cases h
    funext other
    rw [MemoryMedium.get?, MemoryMedium.put, lookup_insert, Function.update_apply]
    rfl

/-- Without a worker nothing is pending. Every submitted write has one entry in the ledger, with
the fate that the queue shows for it; those handed on are the ones that began or will begin on the
medium, and those recorded are what the queue counts. Once the queue is quiet and no write has
failed, every key has the text that writing without a worker would have left. -/
theorem no_write_is_lost {timeout : Value} {t : Trace} {q : WriteQueue}
    (run : Execution timeout t q) :
    (q.isRunning = false → q.pending = []) ∧ Balanced t.ledger t.submitted t.begun q ∧
      q.completed + q.failed + q.awaited.length = (t.begun ++ q.unbegun).length ∧
      (Quiet q → (∀ e ∈ t.ended, e.2 = none) →
        ∀ {μ : Type} [Medium μ] (view : μ → String → Option String), Keeps view →
          ∀ before after : μ, Landed before t.ended after →
            (t.submitted.foldl Writer.submit (.create before timeout)).queue.failed = 0 →
            ∀ key, view after key =
              view (t.submitted.foldl Writer.submit (.create before timeout)).medium key) := by
  have bal := execution_balanced run
  refine ⟨fun gone => ?_, bal, ?_, ?_⟩
  · exact ((execution_invariant run).absent ((isRunning_eq_false_iff q).mp gone)).1
  · rw [← bal.handed.length_eq, Ledger.length_handed, bal.completed, bal.failed, bal.awaited]
  · intro quiet fine μ _ view keeps before after landed none_failed key
    obtain ⟨made, writes, inline, failed⟩ :=
      submits_inline (w := .create before timeout) rfl rfl t.submitted
    have fine' : ∀ e ∈ made, e.2 = none := by
      have none_made : made.countP (fun e => e.2.isSome) = 0 := by
        rw [none_failed] at failed
        omega
      simpa [List.countP_eq_zero] using none_made
    rw [view_of_landed keeps landed fine, view_of_landed keeps inline fine', writes,
      newest_ended_of_quiet run quiet]
    rfl

def drained : List Event :=
  takeover ++ [.finish .current none, .pop, .hand, .begin .current, .finish .current none]

theorem drained_is_not_lost :
    ∃ t q, replay [] (initial .null) drained = some (t, q) ∧ Quiet q ∧
      t.ledger = [⟨⟨"a", "1"⟩, .failed⟩, ⟨⟨"a", "2"⟩, .replaced⟩, ⟨⟨"b", "3"⟩, .completed⟩,
        ⟨⟨"a", "4"⟩, .completed⟩] ∧
      Balanced t.ledger t.submitted t.begun q ∧
      ∀ key, MemoryMedium.get? (.ofEntries [("a", "4"), ("b", "3")]) key =
        (t.submitted.foldl Writer.submit (.create MemoryMedium.empty .null)).medium.get? key := by
  have run : replay [] (initial .null) drained = some _ := rfl
  have whole := no_write_is_lost (execution_of_replay .start run)
  obtain ⟨-, balanced, -, same⟩ := whole
  have landed : Landed MemoryMedium.empty
      [(⟨"a", "1"⟩, none), (⟨"b", "3"⟩, none), (⟨"a", "4"⟩, none)]
      (.ofEntries [("a", "4"), ("b", "3")]) :=
    .cons rfl (.cons rfl (.cons rfl (.nil _)))
  refine ⟨_, _, run, ⟨rfl, rfl, rfl, rfl⟩, rfl, balanced, ?_⟩
  exact same ⟨rfl, rfl, rfl, rfl⟩ (by decide) _ keeps_memory _ _ landed rfl

end ControlPanel.WriteQueue
