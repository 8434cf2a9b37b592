import ControlPanel.Proofs.WriteOrder
import Mathlib.Data.List.Induction
import Mathlib.Data.List.Pairwise

/-!
# The pending writes

The time of a move is the number of moves before it. At any moment the pending writes are the ones
that were queued last for their key and whose key has not been popped since, in the order of their
times. The worker pops the oldest of them. So the writes that begin, whatever their keys, are
submissions in the order of their times, and each of them was the last of its key when it was
popped.
-/
namespace ControlPanel.WriteQueue

structure Timed where
  time : Nat
  write : Write
  deriving DecidableEq, Repr

namespace Move

def concerns (m : Move) (key : String) : Bool :=
  m.queued?.any (·.key = key) || m.popped?.any (·.key = key)

end Move

namespace Trace

def timed (shown? : Move → Option Write) (t : Trace) : List Timed :=
  t.zipIdx.filterMap fun (m, n) => (shown? m).map (Timed.mk n)

def queued (t : Trace) : List Timed := t.timed Move.queued?

def popped (t : Trace) : List Timed := t.timed Move.popped?

def latest? (t : Trace) (key : String) : Option Timed :=
  (t.queued.filter fun s => s.write.key = key).getLast?

/-- A queued write is the last one of its key, and its key has not been popped since. -/
def IsPending (t : Trace) (s : Timed) : Prop :=
  t.latest? s.write.key = some s ∧ ∀ p ∈ t.popped, p.write.key = s.write.key → p.time < s.time

instance (t : Trace) (s : Timed) : Decidable (t.IsPending s) :=
  inferInstanceAs (Decidable (_ ∧ ∀ p ∈ t.popped, _))

/-- The queued writes of which only the last one of a key counts, until the key is popped. -/
def keepLast (t : Trace) : List Timed :=
  t.queued.filter fun s => t.IsPending s

def takenUp? (t : Trace) (m : Move) : Option Timed :=
  (m.inlined?.map (Timed.mk t.length)).or (m.popped?.bind fun w => t.latest? w.key)

def takenAfter (t : Trace) : List Move → List Timed
  | [] => []
  | m :: rest => (t.takenUp? m).toList ++ takenAfter (t ++ [m]) rest

def taken (t : Trace) : List Timed := takenAfter [] t

variable {t : Trace} {m : Move} {shown? : Move → Option Write}

theorem timed_concat (shown? : Move → Option Write) (t : Trace) (m : Move) :
    timed shown? (t ++ [m]) =
      t.timed shown? ++ ((shown? m).map (Timed.mk t.length)).toList := by
  cases shown : shown? m <;> simp [timed, List.zipIdx_append, shown]

theorem time_lt_length {s : Timed} (h : s ∈ t.timed shown?) : s.time < t.length := by
  simp only [timed, List.mem_filterMap, Option.map_eq_some_iff] at h
  obtain ⟨⟨m, n⟩, mem, w, -, rfl⟩ := h
  simpa using List.snd_lt_of_mem_zipIdx mem

theorem timed_increasing (shown? : Move → Option Write) (t : Trace) :
    (t.timed shown?).Pairwise (·.time < ·.time) := by
  induction t using List.reverseRecOn with
  | nil => exact .nil
  | append_singleton t m ih =>
    rw [timed_concat, List.pairwise_append]
    refine ⟨ih, by cases shown? m <;> simp, fun s old s' new => ?_⟩
    simp only [Option.mem_toList, Option.map_eq_some_iff] at new
    obtain ⟨w, -, rfl⟩ := new
    exact time_lt_length old

theorem latest_concat (t : Trace) (m : Move) (key : String) :
    latest? (t ++ [m]) key =
      ((m.queued?.filter fun w => w.key = key).map (Timed.mk t.length)).or (t.latest? key) := by
  rw [latest?, queued, timed_concat, List.filter_append, List.getLast?_append]
  congr 1
  cases m.queued? with
  | none => rfl
  | some w => by_cases own : w.key = key <;> simp [Option.filter, own]

theorem takenAfter_concat (t : Trace) (moves : List Move) (m : Move) :
    takenAfter t (moves ++ [m]) = takenAfter t moves ++ (takenUp? (t ++ moves) m).toList := by
  induction moves generalizing t with
  | nil => simp [takenAfter]
  | cons first rest ih => simp [takenAfter, ih]

theorem taken_concat (t : Trace) (m : Move) :
    taken (t ++ [m]) = t.taken ++ (t.takenUp? m).toList :=
  takenAfter_concat [] t m

theorem mem_timed_concat {s : Timed} : s ∈ timed shown? (t ++ [m]) ↔
    s ∈ t.timed shown? ∨ shown? m = some s.write ∧ s.time = t.length := by
  rw [timed_concat, List.mem_append]
  refine or_congr_right ?_
  cases shown? m with
  | none => simp
  | some w =>
    constructor
    · intro new
      obtain rfl := List.mem_singleton.mp new
      exact ⟨rfl, rfl⟩
    · rintro ⟨same, now⟩
      obtain ⟨time, write⟩ := s
      cases same
      cases now
      exact List.mem_singleton_self _

theorem not_concerns_iff {key : String} : m.concerns key = false ↔
    (∀ w, m.queued? = some w → w.key ≠ key) ∧ ∀ w, m.popped? = some w → w.key ≠ key := by
  cases queued : m.queued? <;> cases popped : m.popped? <;> simp [Move.concerns, queued, popped]

theorem latest_concat_of_ne {key : String} (other : ∀ w, m.queued? = some w → w.key ≠ key) :
    latest? (t ++ [m]) key = t.latest? key := by
  rw [latest_concat]
  cases queued : m.queued? with
  | none => rfl
  | some w => simp [Option.filter, other w queued]

theorem latest_concat_own {w : Write} (queued : m.queued? = some w) :
    latest? (t ++ [m]) w.key = some ⟨t.length, w⟩ := by
  simp [latest_concat, queued, Option.filter]

/-- Of the older writes, those of a key that is queued or popped are no longer pending. -/
theorem isPending_concat {s : Timed} (old : s.time < t.length) :
    IsPending (t ++ [m]) s ↔ t.IsPending s ∧ m.concerns s.write.key = false := by
  rw [not_concerns_iff]
  constructor
  · rintro ⟨latest, unpopped⟩
    have others : ∀ w, m.queued? = some w → w.key ≠ s.write.key := by
      intro w queued same
      rw [← same, latest_concat_own queued, Option.some.injEq] at latest
      rw [← latest] at old
      exact Nat.lt_irrefl _ old
    rw [latest_concat_of_ne others] at latest
    refine ⟨⟨latest, fun p mem => unpopped p (mem_timed_concat.mpr (.inl mem))⟩, others, ?_⟩
    intro w pops same
    have now : (⟨t.length, w⟩ : Timed) ∈ popped (t ++ [m]) :=
      mem_timed_concat.mpr (.inr ⟨pops, rfl⟩)
    exact Nat.lt_asymm old (unpopped _ now same)
  · rintro ⟨⟨latest, unpopped⟩, others, apart⟩
    refine ⟨by rw [latest_concat_of_ne others, latest], fun p mem same => ?_⟩
    rcases mem_timed_concat.mp mem with earlier | ⟨popped, -⟩
    · exact unpopped p earlier same
    · exact absurd same (apart _ popped)

/-- A write is pending once it is queued. -/
theorem isPending_new {w : Write} (queued : m.queued? = some w) (calm : m.popped? = none) :
    IsPending (t ++ [m]) ⟨t.length, w⟩ := by
  refine ⟨latest_concat_own queued, fun p mem _ => ?_⟩
  rcases mem_timed_concat.mp mem with earlier | ⟨popped, -⟩
  · exact time_lt_length earlier
  · simp [calm] at popped

theorem keepLast_concat (t : Trace) (m : Move) (one : m.queued? = none ∨ m.popped? = none) :
    keepLast (t ++ [m]) =
      (t.keepLast.filter fun s => !m.concerns s.write.key) ++
        (m.queued?.map (Timed.mk t.length)).toList := by
  rw [keepLast, queued, timed_concat, List.filter_append]
  congr 1
  · rw [keepLast, List.filter_filter]
    refine List.filter_congr fun s mem => ?_
    rw [Bool.eq_iff_iff]
    simp [isPending_concat (time_lt_length mem), and_comm]
  · cases queued : m.queued? with
    | none => rfl
    | some w => simp [isPending_new queued (one.resolve_left (by simp [queued]))]

end Trace

namespace Trace

variable {t : Trace} {s s' : Timed}

theorem isPending_of_mem (h : s ∈ t.keepLast) : t.IsPending s := by
  simpa using (List.mem_filter.mp h).2

theorem eq_of_same_key (h : s ∈ t.keepLast) (h' : s' ∈ t.keepLast)
    (same : s.write.key = s'.write.key) : s = s' := by
  have latest := (isPending_of_mem h).1
  rw [same, (isPending_of_mem h').1] at latest
  exact (Option.some.inj latest).symm

theorem keepLast_increasing (t : Trace) : t.keepLast.Pairwise (·.time < ·.time) :=
  (timed_increasing Move.queued? t).filter _

theorem nodup_keys_keepLast (t : Trace) : (t.keepLast.map fun s => s.write.key).Nodup := by
  rw [List.Nodup, List.pairwise_map]
  refine t.keepLast_increasing.imp_of_mem fun mem mem' earlier same => ?_
  rw [eq_of_same_key mem mem' same] at earlier
  exact Nat.lt_irrefl _ earlier

/-- The last write queued for a key is not older than any other. -/
theorem exists_latest (h : s ∈ t.queued) : ∃ last ∈ t.queued,
    t.latest? s.write.key = some last ∧ last.write.key = s.write.key ∧ s.time ≤ last.time := by
  have own : s ∈ t.queued.filter fun s' => s'.write.key = s.write.key := by simp [h]
  have ordered : (t.queued.filter fun s' => s'.write.key = s.write.key).Pairwise
      (·.time ≤ ·.time) := ((timed_increasing Move.queued? t).filter _).imp Nat.le_of_lt
  have : Std.Refl fun a b : Timed => a.time ≤ b.time := ⟨fun _ => Nat.le_refl _⟩
  have last := List.getLast_mem (List.ne_nil_of_mem own)
  rw [List.mem_filter, decide_eq_true_eq] at last
  exact ⟨_, last.1, List.getLast?_eq_some_getLast _, last.2, ordered.rel_getLast own⟩

/-- A key has a pending write if it has been queued since it was popped last. -/
theorem exists_pending_iff (t : Trace) (key : String) :
    (∃ s ∈ t.keepLast, s.write.key = key) ↔ ∃ s ∈ t.queued, s.write.key = key ∧
      ∀ p ∈ t.popped, p.write.key = key → p.time < s.time := by
  constructor
  · rintro ⟨s, mem, rfl⟩
    exact ⟨s, (List.mem_filter.mp mem).1, rfl, (isPending_of_mem mem).2⟩
  · rintro ⟨s, mem, rfl, unpopped⟩
    obtain ⟨last, mem', latest, own, later⟩ := exists_latest mem
    have pending : t.IsPending last := by
      rw [IsPending, own]
      exact ⟨latest, fun p popped same => Nat.lt_of_lt_of_le (unpopped p popped same) later⟩
    exact ⟨last, by simp [keepLast, mem', pending], own⟩

variable {m : Move}

/-- What is queued stands behind all that is pending, and replaces what is pending for its key. -/
theorem keepLast_of_queued {w : Write} (queues : m.queued? = some w) (pops : m.popped? = none) :
    keepLast (t ++ [m]) =
      (t.keepLast.filter fun s => w.key ≠ s.write.key) ++ [⟨t.length, w⟩] := by
  rw [t.keepLast_concat m (.inr pops)]
  simp [Move.concerns, queues, pops]

/-- Popping the first pending write leaves the others, since no other has its key. -/
theorem keepLast_of_popped {others : List Timed} (queues : m.queued? = none)
    (pops : m.popped? = some s.write) (parts : t.keepLast = s :: others) :
    keepLast (t ++ [m]) = others := by
  have distinct := t.nodup_keys_keepLast
  rw [parts, List.map_cons, List.nodup_cons] at distinct
  have apart : ∀ s' ∈ others, s.write.key ≠ s'.write.key := fun s' mem same =>
    distinct.1 (same ▸ List.mem_map_of_mem mem)
  rw [t.keepLast_concat m (.inl queues), parts]
  simpa [Move.concerns, queues, pops] using apart

theorem keepLast_of_neither (queues : m.queued? = none) (pops : m.popped? = none) :
    keepLast (t ++ [m]) = t.keepLast := by
  rw [t.keepLast_concat m (.inl queues)]
  simp [Move.concerns, queues, pops]

theorem taken_of_neither (inlines : m.inlined? = none) (pops : m.popped? = none) :
    taken (t ++ [m]) = t.taken := by
  simp [taken_concat, takenUp?, inlines, pops]

theorem taken_of_inlined {w : Write} (inlines : m.inlined? = some w) :
    taken (t ++ [m]) = t.taken ++ [⟨t.length, w⟩] := by
  simp [taken_concat, takenUp?, inlines]

/-- What is popped while it is pending is the last submission of its key. -/
theorem taken_of_popped (inlines : m.inlined? = none) (pops : m.popped? = some s.write)
    (pending : s ∈ t.keepLast) : taken (t ++ [m]) = t.taken ++ [s] := by
  simp [taken_concat, takenUp?, inlines, pops, (isPending_of_mem pending).1]

/-- What is taken up has been submitted before. -/
theorem time_lt_of_taken (t : Trace) : ∀ s ∈ t.taken, s.time < t.length := by
  induction t using List.reverseRecOn with
  | nil => nofun
  | append_singleton t m ih =>
    intro s mem
    rw [List.length_append]
    rw [taken_concat, List.mem_append, Option.mem_toList, takenUp?, Option.or_eq_some_iff] at mem
    rcases mem with earlier | inlined | ⟨-, popped⟩
    · exact Nat.lt_add_right _ (ih s earlier)
    · obtain ⟨w, -, rfl⟩ := Option.map_eq_some_iff.mp inlined
      exact Nat.lt_succ_self _
    · obtain ⟨w, -, latest⟩ := Option.bind_eq_some_iff.mp popped
      have queued := (List.mem_filter.mp (List.mem_of_getLast? latest)).1
      exact Nat.lt_add_right _ (time_lt_length queued)

end Trace

structure Lined (t : Trace) (q : WriteQueue) : Prop where
  pending : q.pending = t.keepLast.map Timed.write
  line : t.begun ++ q.line = t.taken.map Timed.write
  increasing : (t.taken ++ t.keepLast).Pairwise (·.time < ·.time)

theorem initial_lined (timeout : Value) : Lined [] (initial timeout) :=
  ⟨rfl, rfl, .nil⟩

/-- A move that has just been made is younger than what it finds. -/
theorem pairwise_concat_new {t : Trace} {ss : List Timed} (w : Write)
    (increasing : ss.Pairwise (·.time < ·.time)) (past : ∀ s ∈ ss, s.time < t.length) :
    (ss ++ [(⟨t.length, w⟩ : Timed)]).Pairwise (·.time < ·.time) := by
  refine List.pairwise_append.mpr ⟨increasing, List.pairwise_singleton _ _, ?_⟩
  intro s mem s' new
  rw [List.mem_singleton.mp new]
  exact past s mem

theorem Lined.next {t : Trace} {m : Move} {q' : WriteQueue} (h : Lined t m.queue)
    (progress : Progress m q') : Lined (t ++ [m]) q' := by
  obtain ⟨pending, line, increasing⟩ := h
  have begun : Trace.begun (t ++ [m]) = t.begun ++ m.effect.begun?.toList := by
    simp [Trace.begun]
  have past : ∀ s ∈ t.taken ++ t.keepLast, s.time < t.length := by
    intro s mem
    rcases List.mem_append.mp mem with taken | kept
    · exact t.time_lt_of_taken s taken
    · exact Trace.time_lt_length (List.mem_filter.mp kept).1
  cases progress with
  | queued w queues inlines pops pending' line' =>
    have taken := t.taken_of_neither inlines pops
    have kept := t.keepLast_of_queued queues pops
    refine ⟨?_, ?_, ?_⟩
    · rw [pending', enqueue, pending, kept, List.map_append, List.filter_map]
      simp [Function.comp_def, eq_comm]
    · rw [begun, taken, List.append_assoc, line', line]
    · have fewer : (t.taken ++ t.keepLast.filter fun s => w.key ≠ s.write.key).Sublist
          (t.taken ++ t.keepLast) := List.filter_sublist.append_left _
      rw [taken, kept, ← List.append_assoc]
      exact pairwise_concat_new w (increasing.sublist fewer) fun s mem => past s (fewer.subset mem)
  | inlined w queues inlines pops none_pending none_pending' line' =>
    have empty : t.keepLast = [] := List.map_eq_nil_iff.mp (pending.symm.trans none_pending)
    have taken := t.taken_of_inlined inlines
    have kept := t.keepLast_of_neither queues pops
    refine ⟨?_, ?_, ?_⟩
    · rw [none_pending', kept, empty, List.map_nil]
    · rw [begun, taken, List.append_assoc, line', ← List.append_assoc, line, List.map_append]
      rfl
    · rw [taken, kept, empty, List.append_nil]
      rw [empty, List.append_nil] at increasing past
      exact pairwise_concat_new w increasing past
  | popped w rest queues inlines pops first pending' line' =>
    obtain ⟨s, others, parts, rfl, rfl⟩ := List.map_eq_cons_iff.mp (pending.symm.trans first)
    have taken := t.taken_of_popped inlines pops (by simp [parts])
    have kept := t.keepLast_of_popped queues pops parts
    refine ⟨?_, ?_, ?_⟩
    · rw [pending', kept]
    · rw [begun, taken, List.append_assoc, line', ← List.append_assoc, line, List.map_append]
      rfl
    · rw [taken, kept, List.append_assoc, List.singleton_append, ← parts]
      exact increasing
  | other queues inlines pops pending' line' =>
    have taken := t.taken_of_neither inlines pops
    have kept := t.keepLast_of_neither queues pops
    refine ⟨?_, ?_, ?_⟩
    · rw [pending', kept, pending]
    · rw [begun, taken, List.append_assoc, line', line]
    · rw [taken, kept]
      exact increasing

theorem execution_lined {timeout : Value} {t : Trace} {q : WriteQueue}
    (run : Execution timeout t q) : Lined t q := by
  induction run with
  | start => exact initial_lined timeout
  | @next t q e q' effect run h ih =>
    exact ih.next (m := ⟨q, e, effect⟩) (progress_of_step (execution_invariant run) (step_of_next h))

/-- The pending writes have different keys, which are those queued since they were popped last. Each
is the last write of its key, and they stand in the order in which they were queued. -/
structure KeepsLast (t : Trace) (q : WriteQueue) : Prop where
  distinct : q.pendingKeys.Nodup
  outstanding : ∀ key, key ∈ q.pendingKeys ↔ ∃ s ∈ t.queued, s.write.key = key ∧
    ∀ p ∈ t.popped, p.write.key = key → p.time < s.time
  latest : ∀ w ∈ q.pending, ∃ time, t.latest? w.key = some ⟨time, w⟩
  ordered : q.pendingKeys.Pairwise fun key key' =>
    ∀ s ∈ t.latest? key, ∀ s' ∈ t.latest? key', s.time < s'.time

theorem keepsLast_of_pending {t : Trace} {q : WriteQueue}
    (pending : q.pending = t.keepLast.map Timed.write) : KeepsLast t q := by
  have keys : q.pendingKeys = t.keepLast.map fun s => s.write.key := by
    rw [pendingKeys, pending, List.map_map]
    rfl
  constructor
  case distinct =>
    rw [keys]
    exact t.nodup_keys_keepLast
  case outstanding =>
    intro key
    rw [keys, List.mem_map]
    exact t.exists_pending_iff key
  case latest =>
    intro w mem
    rw [pending] at mem
    obtain ⟨s, kept, rfl⟩ := List.mem_map.mp mem
    exact ⟨s.time, (Trace.isPending_of_mem kept).1⟩
  case ordered =>
    rw [keys, List.pairwise_map]
    refine t.keepLast_increasing.imp_of_mem fun mem mem' earlier s latest s' latest' => ?_
    rw [(Trace.isPending_of_mem mem).1] at latest
    rw [(Trace.isPending_of_mem mem').1] at latest'
    cases latest
    cases latest'
    exact earlier

/-- The worker pops the oldest of the pending writes. -/
theorem pops_oldest {t : Trace} {q q' : WriteQueue} {effect : Effect}
    (pending : q.pending = t.keepLast.map Timed.write) (pop : q.next .pop = some (q', effect)) :
    ∃ s, q'.worker = .holding s.write ∧ q.pending = s.write :: q'.pending ∧
      t.latest? s.write.key = some s ∧
      ∀ key ∈ q.pendingKeys, ∀ s' ∈ t.latest? key, s.time ≤ s'.time := by
  obtain ⟨begun?, notes⟩ := effect
  have step := step_of_next pop
  cases step with
  | pop w rest ready first =>
    obtain ⟨s, others, parts, rfl, rfl⟩ := List.map_eq_cons_iff.mp (pending.symm.trans first)
    have own : s ∈ t.keepLast := by simp [parts]
    refine ⟨s, rfl, first, (Trace.isPending_of_mem own).1, fun key mem s' latest => ?_⟩
    rw [pendingKeys, pending, List.map_map, List.mem_map] at mem
    obtain ⟨s'', mem, rfl⟩ := mem
    obtain rfl : s'' = s' := Option.some.inj ((Trace.isPending_of_mem mem).1.symm.trans latest)
    have increasing := t.keepLast_increasing
    rw [parts] at increasing mem
    rcases List.mem_cons.mp mem with rfl | later
    · exact Nat.le_refl _
    · exact Nat.le_of_lt ((List.pairwise_cons.mp increasing).1 s'' later)

/-- At any moment of an execution the pending writes are the view that keeps the last writes queued.
The worker pops the one whose key was queued last before all others. What begins on the medium, and
then what is taken up and has not begun, are submissions in the order of their times. -/
theorem pending_is_keep_last_view {timeout : Value} {t : Trace} {q : WriteQueue}
    (run : Execution timeout t q) :
    q.pending = t.keepLast.map Timed.write ∧ KeepsLast t q ∧
      (∀ q' effect, q.next .pop = some (q', effect) →
        ∃ s, q'.worker = .holding s.write ∧ q.pending = s.write :: q'.pending ∧
          t.latest? s.write.key = some s ∧
          ∀ key ∈ q.pendingKeys, ∀ s' ∈ t.latest? key, s.time ≤ s'.time) ∧
      t.begun ++ q.line = t.taken.map Timed.write ∧
      (t.taken.map Timed.time).Pairwise (· < ·) := by
  obtain ⟨pending, line, increasing⟩ := execution_lined run
  refine ⟨pending, keepsLast_of_pending pending, fun q' effect => pops_oldest pending, line, ?_⟩
  rw [List.pairwise_map]
  exact (List.pairwise_append.mp increasing).1

def resubmitted : List Event :=
  [.start, .submit ⟨"x", "x1"⟩, .pop, .hand, .begin .current, .submit ⟨"a", "a1"⟩,
    .submit ⟨"b", "b1"⟩, .submit ⟨"a", "a2"⟩, .finish .current none, .pop, .hand, .begin .current]

theorem resubmitted_moves_to_the_back :
    ∃ t q, replay [] (initial .null) resubmitted = some (t, q) ∧
      t.keepLast = [⟨7, ⟨"a", "a2"⟩⟩] ∧ t.taken = [⟨1, ⟨"x", "x1"⟩⟩, ⟨6, ⟨"b", "b1"⟩⟩] ∧
      q.pending = t.keepLast.map Timed.write ∧ KeepsLast t q ∧
      t.begun ++ q.line = t.taken.map Timed.write ∧
      (t.taken.map Timed.time).Pairwise (· < ·) := by
  have run : replay [] (initial .null) resubmitted = some _ := rfl
  obtain ⟨pending, keeps, -, line, increasing⟩ :=
    pending_is_keep_last_view (execution_of_replay .start run)
  exact ⟨_, _, run, rfl, rfl, pending, keeps, line, increasing⟩

end ControlPanel.WriteQueue
