import ControlPanel.Tracker

/-!
# Polling

A tracker is started and stopped, its pollers take samples and wait, and time passes between a
sample and the next one of the same poller. While a poller that a stop has not waited for is still
at its sample, a start takes back the signal that it has yet to see, and both pollers go on. If no
start comes so early, there is one loop at most, and one that was stopped stays so.
-/
namespace ControlPanel.Tracker

variable {t t' : Tracker} {e : Event} {p q : Nat} {x : Nat × Poller} {phase : Poller}

theorem next_start : t.next .start = some t' ↔
    t.stopping = false ∧ (if t.isRunning then t else t.launch) = t' := by
  simp only [next, Option.ite_none_left_eq_some, Option.some.injEq, Bool.not_eq_true]

theorem next_stop : t.next .stop = some t' ↔
    t.stopping = false ∧ (if t.current?.isSome then t.signal else t) = t' := by
  simp only [next, Option.ite_none_left_eq_some, Option.some.injEq, Bool.not_eq_true]

theorem next_stopped : t.next .stopped = some t' ↔
    t.stopping ∧ { t with current? := none, stopping := false } = t' := by
  simp only [next, Option.ite_none_right_eq_some, Option.some.injEq]

theorem next_sampled : t.next (.sampled p) = some t' ↔
    (p, .sampling) ∈ t.pollers ∧ (if t.stopSignal then t.remove p else t.set p .waiting) = t' := by
  simp only [next, Option.ite_none_right_eq_some, Option.some.injEq, List.contains_iff_mem]

theorem next_failed : t.next (.failed p) = some t' ↔
    (p, .sampling) ∈ t.pollers ∧ t.remove p = t' := by
  simp only [next, Option.ite_none_right_eq_some, Option.some.injEq, List.contains_iff_mem]

theorem next_wake : t.next (.wake p) = some t' ↔
    (p, .waiting) ∈ t.pollers ∧ t.set p .sampling = t' := by
  simp only [next, Option.ite_none_right_eq_some, Option.some.injEq, List.contains_iff_mem]

theorem isAlive_iff : t.isAlive p ↔ ∃ phase, (p, phase) ∈ t.pollers := by
  simp only [isAlive, List.any_eq_true, decide_eq_true_eq, Prod.exists]
  constructor
  · rintro ⟨n, phase, among, rfl⟩
    exact ⟨phase, among⟩
  · rintro ⟨phase, among⟩
    exact ⟨p, phase, among, rfl⟩

theorem isAlive_of_mem (among : (p, phase) ∈ t.pollers) : t.isAlive p :=
  isAlive_iff.mpr ⟨phase, among⟩

theorem mem_remove : x ∈ (t.remove p).pollers ↔ x ∈ t.pollers ∧ x.1 ≠ p := by
  simp [remove]

theorem mem_signal : x ∈ t.signal.pollers ↔ x ∈ t.pollers ∧ x.2 = .sampling := by
  simp [signal]

theorem mem_launch : x ∈ t.launch.pollers ↔ x ∈ t.pollers ∨ x = (t.started, .sampling) := by
  simp [launch]

theorem alive_launch : t.launch.isAlive p ↔ t.isAlive p ∨ p = t.started := by
  rw [isAlive_iff, isAlive_iff]
  simp only [mem_launch, Prod.mk.injEq, exists_or, exists_and_left, exists_eq, and_true]

theorem eq_started_of_launch (ended : t.pollers = []) (alive : t.launch.isAlive p) :
    p = t.started := by
  refine (alive_launch.mp alive).resolve_left fun old => ?_
  obtain ⟨phase, among⟩ := isAlive_iff.mp old
  rw [ended] at among
  cases among

theorem mem_set : x ∈ (t.set p phase).pollers ↔
    (x ∈ t.pollers ∧ x.1 ≠ p) ∨ (x = (p, phase) ∧ t.isAlive p) := by
  simp only [set, List.mem_map, isAlive_iff]
  constructor
  · rintro ⟨⟨n, old⟩, among, rfl⟩
    by_cases same : n = p
    · subst same
      exact .inr ⟨if_pos rfl, old, among⟩
    · rw [if_neg same]
      exact .inl ⟨among, same⟩
  · rintro (⟨among, other⟩ | ⟨rfl, old, among⟩)
    · exact ⟨x, among, if_neg other⟩
    · exact ⟨(p, old), among, if_pos rfl⟩

structure Continues (t t' : Tracker) : Prop where
  started : t'.started = t.started
  signal : t.stopSignal → t'.stopSignal
  alive : ∀ p, t'.isAlive p → t.isAlive p

theorem Continues.refl (t : Tracker) : Continues t t :=
  ⟨rfl, id, fun _ => id⟩

theorem continues_remove : Continues t (t.remove p) := by
  refine ⟨rfl, id, fun q alive => ?_⟩
  obtain ⟨phase, among⟩ := isAlive_iff.mp alive
  exact isAlive_of_mem (mem_remove.mp among).1

theorem continues_set : Continues t (t.set p phase) := by
  refine ⟨rfl, id, fun q alive => ?_⟩
  obtain ⟨own, among⟩ := isAlive_iff.mp alive
  rcases mem_set.mp among with ⟨before, _⟩ | ⟨same, there⟩
  · exact isAlive_of_mem before
  · cases same
    exact there

theorem continues_signal : Continues t t.signal := by
  refine ⟨rfl, fun _ => rfl, fun q alive => ?_⟩
  obtain ⟨phase, among⟩ := isAlive_iff.mp alive
  exact isAlive_of_mem (mem_signal.mp among).1

/-- What an event does: a start launches a poller unless one runs, and everything else continues. -/
theorem launch_or_continues (h : t.next e = some t') :
    (e = .start ∧ t.isRunning = false ∧ t' = t.launch) ∨ Continues t t' := by
  cases e with
  | start =>
    obtain ⟨_, rfl⟩ := next_start.mp h
    cases running : t.isRunning with
    | true => exact .inr (.refl t)
    | false => exact .inl ⟨rfl, rfl, rfl⟩
  | stop =>
    obtain ⟨_, rfl⟩ := next_stop.mp h
    right
    split
    · exact continues_signal
    · exact .refl t
  | stopped =>
    obtain ⟨_, rfl⟩ := next_stopped.mp h
    exact .inr ⟨rfl, id, fun _ => id⟩
  | sampled p =>
    obtain ⟨_, rfl⟩ := next_sampled.mp h
    right
    split
    · exact continues_remove
    · exact continues_set
  | failed p =>
    obtain ⟨_, rfl⟩ := next_failed.mp h
    exact .inr continues_remove
  | wake p =>
    obtain ⟨_, rfl⟩ := next_wake.mp h
    exact .inr continues_set

/-- Pollers are numbered in the order of their launch, none waits once the signal is given, and one
that the tracker has forgotten has been given it. -/
structure Sound (t : Tracker) : Prop where
  numbered : ∀ p, t.isAlive p → p < t.started
  signalled : t.stopSignal → ∀ p, (p, .waiting) ∉ t.pollers
  stopping : t.stopping → t.stopSignal
  forgotten : t.current? = none → ∀ p, t.isAlive p → t.stopSignal

theorem sound_initial : Sound initial where
  numbered p alive := by cases alive
  signalled given := by cases given
  stopping waits := by cases waits
  forgotten _ p alive := by cases alive

theorem Sound.launch (s : Sound t) : Sound t.launch where
  numbered p alive := by
    rcases alive_launch.mp alive with old | rfl
    · exact Nat.lt_succ_of_lt (s.numbered p old)
    · exact Nat.lt_succ_self _
  signalled given := by cases given
  stopping waits := by cases waits
  forgotten none := by cases none

/-- Events after which the tracker remembers the same poller, and no more is asked of it than before. -/
theorem Sound.continues (s : Sound t) (goes_on : Continues t t')
    (waits : t'.stopSignal → ∀ p, (p, .waiting) ∉ t'.pollers)
    (stopping : t'.stopping → t'.stopSignal)
    (forgotten : t'.current? = none → t.current? = none ∨ t'.stopSignal) : Sound t' where
  numbered p alive := goes_on.started ▸ s.numbered p (goes_on.alive p alive)
  signalled := waits
  stopping := stopping
  forgotten none p alive := (forgotten none).elim
    (fun before => goes_on.signal (s.forgotten before p (goes_on.alive p alive))) id

theorem Sound.signal (s : Sound t) : Sound t.signal :=
  s.continues continues_signal (fun _ _ among => by cases (mem_signal.mp among).2)
    (fun _ => rfl) fun _ => .inr rfl

theorem Sound.remove (s : Sound t) : Sound (t.remove p) :=
  s.continues continues_remove
    (fun given q among => s.signalled given q (mem_remove.mp among).1) s.stopping .inl

theorem Sound.set (s : Sound t) (asked : t.stopSignal → phase = .sampling) :
    Sound (t.set p phase) := by
  refine s.continues continues_set (fun given q among => ?_) s.stopping .inl
  rcases mem_set.mp among with ⟨before, _⟩ | ⟨same, _⟩
  · exact s.signalled given q before
  · cases same
    cases asked given

theorem Sound.next (s : Sound t) (h : t.next e = some t') : Sound t' := by
  cases e with
  | start =>
    obtain ⟨_, rfl⟩ := next_start.mp h
    split
    · exact s
    · exact s.launch
  | stop =>
    obtain ⟨_, rfl⟩ := next_stop.mp h
    split
    · exact s.signal
    · exact s
  | stopped =>
    obtain ⟨waits, rfl⟩ := next_stopped.mp h
    exact s.continues ⟨rfl, id, fun _ => id⟩ s.signalled (fun none => by cases none)
      fun _ => .inr (s.stopping waits)
  | sampled p =>
    obtain ⟨_, rfl⟩ := next_sampled.mp h
    split
    · exact s.remove
    · rename_i unsignalled
      exact s.set fun given => absurd given unsignalled
  | failed p =>
    obtain ⟨_, rfl⟩ := next_failed.mp h
    exact s.remove
  | wake p =>
    obtain ⟨_, rfl⟩ := next_wake.mp h
    exact s.set fun _ => rfl

inductive Reaches (Allowed : Tracker → Event → Prop) (t : Tracker) : Tracker → Prop where
  | refl : Reaches Allowed t t
  | step {u v : Tracker} {e : Event} : Reaches Allowed t u → Allowed u e → u.next e = some v →
      Reaches Allowed t v

variable {Allowed : Tracker → Event → Prop}

theorem Reaches.sound (h : Reaches Allowed t t') (s : Sound t) : Sound t' := by
  induction h with
  | refl => exact s
  | step _ _ one ih => exact ih.next one

/-- A poller can take another sample once its current one has ended. -/
def MayLoop (t : Tracker) (p : Nat) : Prop :=
  (t.run? [.sampled p, .wake p]).isSome ∨ (t.run? [.wake p]).isSome

instance (t : Tracker) (p : Nat) : Decidable (t.MayLoop p) :=
  inferInstanceAs (Decidable (_ ∨ _))

theorem run_cons (t : Tracker) (e : Event) (events : List Event) :
    t.run? (e :: events) = (t.next e).bind (·.run? events) :=
  List.foldlM_cons

theorem run_wake_isSome : (t.run? [.wake p]).isSome ↔ (p, .waiting) ∈ t.pollers := by
  rw [run_cons]
  by_cases waits : (p, .waiting) ∈ t.pollers
  · rw [next_wake.mpr ⟨waits, rfl⟩]
    exact iff_of_true rfl waits
  · cases h : t.next (.wake p) with
    | none => exact iff_of_false Bool.false_ne_true waits
    | some u => exact absurd (next_wake.mp h).1 waits

theorem run_sampled_wake_isSome : (t.run? [.sampled p, .wake p]).isSome ↔
    (p, .sampling) ∈ t.pollers ∧ t.stopSignal = false := by
  rw [run_cons]
  by_cases samples : (p, .sampling) ∈ t.pollers
  · rw [next_sampled.mpr ⟨samples, rfl⟩, Option.bind_some, run_wake_isSome]
    cases t.stopSignal with
    | true => simp [mem_remove]
    | false => simp [mem_set, samples, isAlive_of_mem samples]
  · cases h : t.next (.sampled p) with
    | none => exact iff_of_false Bool.false_ne_true fun both => samples both.1
    | some u => exact absurd (next_sampled.mp h).1 samples

/-- A poller loops as long as it has not ended and no signal is given. -/
theorem Sound.mayLoop_iff (s : Sound t) : t.MayLoop p ↔ t.isAlive p ∧ t.stopSignal = false := by
  rw [MayLoop, run_wake_isSome, run_sampled_wake_isSome, isAlive_iff]
  constructor
  · rintro (⟨samples, unsignalled⟩ | waits)
    · exact ⟨⟨_, samples⟩, unsignalled⟩
    · exact ⟨⟨_, waits⟩, Bool.eq_false_iff.mpr fun given => s.signalled given p waits⟩
  · rintro ⟨⟨phase, among⟩, unsignalled⟩
    cases phase with
    | sampling => exact .inl ⟨among, unsignalled⟩
    | waiting => exact .inr among

def OneLoop (t : Tracker) : Prop := ∀ p q, t.MayLoop p → t.MayLoop q → p = q

/-- A start that takes effect leaves one loop exactly if every poller before it has ended. -/
theorem oneLoop_launch_iff (h : Reaches Allowed initial t) :
    t.launch.OneLoop ↔ t.pollers = [] := by
  have s := h.sound sound_initial
  have loops (p : Nat) : t.launch.MayLoop p ↔ t.isAlive p ∨ p = t.started := by
    rw [s.launch.mayLoop_iff, alive_launch]
    exact and_iff_left rfl
  constructor
  · intro one
    apply List.eq_nil_iff_forall_not_mem.mpr
    intro x among
    have alive : t.isAlive x.1 := isAlive_of_mem among
    have same : x.1 = t.started := one _ _ ((loops _).mpr (.inl alive)) ((loops _).mpr (.inr rfl))
    exact absurd (s.numbered _ alive) (same ▸ Nat.lt_irrefl _)
  · intro ended p q hp hq
    have only (r : Nat) (hr : t.launch.MayLoop r) : r = t.started :=
      eq_started_of_launch ended (s.launch.mayLoop_iff.mp hr).1
    exact (only p hp).trans (only q hq).symm

/-- No start takes effect while a poller is left that a stop has not waited for. -/
def Patient (t : Tracker) (e : Event) : Prop :=
  e = .start → t.isRunning ∨ t.pollers = []

def Lone (t : Tracker) : Prop := ∀ p, t.isAlive p → p + 1 = t.started

theorem Lone.next (lone : Lone t) (patient : Patient t e) (h : t.next e = some t') : Lone t' := by
  intro p alive
  rcases launch_or_continues h with ⟨rfl, rests, rfl⟩ | goes_on
  · have ended : t.pollers = [] := (patient rfl).resolve_left (by rw [rests]; exact Bool.false_ne_true)
    rw [eq_started_of_launch ended alive]
    rfl
  · rw [goes_on.started]
    exact lone p (goes_on.alive p alive)

theorem lone_of_reaches (h : Reaches Patient initial t) : Lone t := by
  induction h with
  | refl => exact fun p alive => by cases alive
  | step _ patient one ih => exact ih.next patient one

theorem oneLoop_of_reaches (h : Reaches Patient initial t) : t.OneLoop := by
  intro p q hp hq
  have s := h.sound sound_initial
  have lone := lone_of_reaches h
  exact Nat.succ.inj ((lone p (s.mayLoop_iff.mp hp).1).trans (lone q (s.mayLoop_iff.mp hq).1).symm)

structure Halted (p : Nat) (t : Tracker) : Prop where
  launched : p < t.started
  told : t.isAlive p → t.stopSignal

theorem Halted.next (halted : Halted p t) (patient : Patient t e) (h : t.next e = some t') :
    Halted p t' := by
  rcases launch_or_continues h with ⟨rfl, rests, rfl⟩ | goes_on
  · have ended : t.pollers = [] := (patient rfl).resolve_left (by rw [rests]; exact Bool.false_ne_true)
    refine ⟨Nat.lt_succ_of_lt halted.launched, fun alive => ?_⟩
    exact absurd (eq_started_of_launch ended alive) (Nat.ne_of_lt halted.launched)
  · exact ⟨goes_on.started ▸ halted.launched,
      fun alive => goes_on.signal (halted.told (goes_on.alive p alive))⟩

theorem halted_of_stop (s : Sound t) (h : t.next .stop = some t') (launched : p < t.started) :
    Halted p t' := by
  obtain ⟨_, rfl⟩ := next_stop.mp h
  split
  · exact ⟨launched, fun _ => rfl⟩
  · rename_i unknown
    exact ⟨launched, s.forgotten (Option.not_isSome_iff_eq_none.mp unknown) p⟩

theorem Halted.reaches (halted : Halted p t) (h : Reaches Patient t t') : Halted p t' := by
  induction h with
  | refl => exact halted
  | step _ patient one ih => exact ih.next patient one

/-- A loop that was stopped never resumes. -/
theorem not_mayLoop_after_stop (h : Reaches Patient initial t) (stop : t.next .stop = some t')
    {later : Tracker} (after : Reaches Patient t' later) (launched : p < t.started) :
    ¬ later.MayLoop p := by
  have s := h.sound sound_initial
  have halted := (halted_of_stop s stop launched).reaches after
  rw [(after.sound (s.next stop)).mayLoop_iff]
  rintro ⟨alive, unsignalled⟩
  rw [halted.told alive] at unsignalled
  cases unsignalled

/-- Time does not go back, and a poller wakes no sooner than a pause after its last sample. -/
structure Timely (pause : Nat) (log : List (Nat × Event)) (time : Nat) (e : Event) : Prop where
  later : ∀ past ∈ log, past.1 ≤ time
  rested : ∀ p, e = .wake p → ∀ since, (since, .sampled p) ∈ log → since + pause ≤ time

inductive Schedule (Allowed : Tracker → Event → Prop) (pause : Nat) :
    List (Nat × Event) → Tracker → Prop where
  | nil : Schedule Allowed pause [] initial
  | cons {log : List (Nat × Event)} {t t' : Tracker} {time : Nat} {e : Event} :
      Schedule Allowed pause log t → Allowed t e → t.next e = some t' → Timely pause log time e →
      Schedule Allowed pause ((time, e) :: log) t'

variable {pause a b : Nat} {log newer mid past : List (Nat × Event)}

theorem Schedule.reaches (h : Schedule Allowed pause log t) : Reaches Allowed initial t := by
  induction h with
  | nil => exact .refl
  | cons _ allowed one _ ih => exact ih.step allowed one

theorem Schedule.sound (h : Schedule Allowed pause log t) : Sound t :=
  h.reaches.sound sound_initial

theorem Schedule.of_append (h : Schedule Allowed pause (newer ++ past) t) :
    ∃ u, Schedule Allowed pause past u := by
  induction newer generalizing t with
  | nil => exact ⟨t, h⟩
  | cons _ newer ih =>
    cases h with
    | cons before _ _ _ => exact ih before

theorem started_le (h : t.next e = some t') : t.started ≤ t'.started := by
  rcases launch_or_continues h with ⟨_, _, rfl⟩ | goes_on
  · exact Nat.le_succ _
  · exact Nat.le_of_eq goes_on.started.symm

/-- Nothing but waking brings a poller to its next sample. -/
theorem sampling_before (h : t.next e = some t') (launched : p < t.started) (asleep : e ≠ .wake p)
    (samples : (p, .sampling) ∈ t'.pollers) : (p, .sampling) ∈ t.pollers := by
  cases e with
  | start =>
    obtain ⟨_, rfl⟩ := next_start.mp h
    split at samples
    · exact samples
    · rcases mem_launch.mp samples with old | new
      · exact old
      · cases new
        exact absurd launched (Nat.lt_irrefl _)
  | stop =>
    obtain ⟨_, rfl⟩ := next_stop.mp h
    split at samples
    · exact (mem_signal.mp samples).1
    · exact samples
  | stopped =>
    obtain ⟨_, rfl⟩ := next_stopped.mp h
    exact samples
  | sampled q =>
    obtain ⟨_, rfl⟩ := next_sampled.mp h
    split at samples
    · exact (mem_remove.mp samples).1
    · rcases mem_set.mp samples with ⟨old, _⟩ | ⟨same, _⟩
      · exact old
      · cases same
  | failed q =>
    obtain ⟨_, rfl⟩ := next_failed.mp h
    exact (mem_remove.mp samples).1
  | wake q =>
    obtain ⟨_, rfl⟩ := next_wake.mp h
    rcases mem_set.mp samples with ⟨old, _⟩ | ⟨same, _⟩
    · exact old
    · cases same
      exact absurd rfl asleep

theorem not_sampling_after_sample (h : t.next (.sampled p) = some t') :
    (p, .sampling) ∉ t'.pollers := by
  obtain ⟨_, rfl⟩ := next_sampled.mp h
  split <;> simp [mem_remove, mem_set]

/-- A poller that has taken a sample is at another one only after it has rested and woken. -/
theorem Schedule.rested (h : Schedule Allowed pause (mid ++ (a, .sampled p) :: past) t) :
    p < t.started ∧ ((p, .sampling) ∈ t.pollers → ∃ c, (c, .wake p) ∈ mid ∧ a + pause ≤ c) := by
  induction mid generalizing t with
  | nil =>
    cases h with
    | cons before _ one _ =>
      have alive := isAlive_of_mem (next_sampled.mp one).1
      exact ⟨Nat.lt_of_lt_of_le (before.sound.numbered p alive) (started_le one),
        fun samples => absurd samples (not_sampling_after_sample one)⟩
  | cons entry mid ih =>
    cases h with
    | @cons _ u _ c e before _ one timely =>
      obtain ⟨launched, woken⟩ := ih before
      refine ⟨Nat.lt_of_lt_of_le launched (started_le one), fun samples => ?_⟩
      by_cases wakes : e = .wake p
      · exact ⟨c, wakes ▸ List.mem_cons_self,
          timely.rested p wakes a (List.mem_append_right _ List.mem_cons_self)⟩
      · obtain ⟨c, among, rested⟩ := woken (sampling_before one launched wakes samples)
        exact ⟨c, List.mem_cons_of_mem _ among, rested⟩

/-- Two samples of one poller are a pause apart. -/
theorem Schedule.apart
    (h : Schedule Allowed pause ((b, .sampled p) :: (mid ++ (a, .sampled p) :: past)) t) :
    a + pause ≤ b := by
  cases h with
  | cons before _ one timely =>
    obtain ⟨c, among, rested⟩ := before.rested.2 (next_sampled.mp one).1
    exact Nat.le_trans rested (timely.later _ (List.mem_append_left _ among))

/-- Without a start, no poller is launched. -/
theorem Schedule.started_eq (h : Schedule Allowed pause (mid ++ past) t)
    (no_start : ∀ c, (c, .start) ∉ mid) :
    ∃ u, Schedule Allowed pause past u ∧ t.started = u.started := by
  induction mid generalizing t with
  | nil => exact ⟨t, h, rfl⟩
  | cons entry mid ih =>
    cases h with
    | @cons _ u _ c e before _ one _ =>
      obtain ⟨v, behind, same⟩ := ih before fun c among => no_start c (List.mem_cons_of_mem _ among)
      rcases launch_or_continues one with ⟨rfl, _, _⟩ | goes_on
      · exact absurd List.mem_cons_self (no_start c)
      · exact ⟨v, behind, goes_on.started.trans same⟩

theorem number_of_sample (h : Schedule Patient pause log t) (one : t.next (.sampled p) = some t') :
    p + 1 = t.started :=
  lone_of_reaches h.reaches p (isAlive_of_mem (next_sampled.mp one).1)

theorem started_sampled (h : t.next (.sampled p) = some t') : t'.started = t.started := by
  rcases launch_or_continues h with ⟨start, _, _⟩ | goes_on
  · cases start
  · exact goes_on.started

/-- Samples with no start between them come from one poller. -/
theorem same_poller (no_start : ∀ c, (c, .start) ∉ mid)
    (h : Schedule Patient pause ((b, .sampled q) :: (mid ++ (a, .sampled p) :: past)) t) : p = q := by
  cases h with
  | cons before _ last _ =>
    have number := number_of_sample before last
    obtain ⟨u, behind, same⟩ := before.started_eq no_start
    cases behind with
    | cons earlier _ first _ =>
      rw [same, started_sampled first, ← number_of_sample earlier first] at number
      exact (Nat.succ.inj number).symm

def Pauses : Value → Prop
  | .int n => 0 < n
  | .real x => x.le .zero = false ∧ x ≠ .nan
  | .bool b => b
  | _ => False

theorem checkInterval_ok_iff {interval : Value} :
    checkInterval interval = .ok () ↔ Settings.isNotPositive interval = .ok false := by
  unfold checkInterval
  split <;> simp_all

/-- The intervals that are accepted are those that take time, and `nan`. -/
theorem accepted_iff {interval : Value} :
    checkInterval interval = .ok () ↔ Pauses interval ∨ interval = .real .nan := by
  rw [checkInterval_ok_iff]
  cases interval with
  | int n => simp [Settings.isNotPositive, Pauses]
  | bool b => simp [Settings.isNotPositive, Pauses]
  | real x =>
    simp only [Settings.isNotPositive, Pauses, Except.ok.injEq, Value.real.injEq]
    by_cases none : x = .nan
    · subst none
      exact iff_of_true rfl (.inr rfl)
    · simp [none]
  | _ => simp [Settings.isNotPositive, Pauses]

/-- If no start takes effect while a poller is left that a stop has not waited for, one poller loops
at most, one that was stopped never resumes, and samples with no start between them are a pause apart.
A start that takes effect keeps to one loop exactly if no poller is left; intervals that are accepted
take time, but for `nan`. -/
theorem one_loop_when_patient {pause : Nat} {log : List (Nat × Event)} {t : Tracker}
    (h : Schedule Patient pause log t) :
    t.OneLoop ∧
    (∀ t' later p, t.next .stop = some t' → Reaches Patient t' later → p < t.started →
      ¬ later.MayLoop p) ∧
    (∀ newer mid past a b p q,
      log = newer ++ (b, .sampled q) :: (mid ++ (a, .sampled p) :: past) →
      (∀ c, (c, .start) ∉ mid) → a + pause ≤ b) ∧
    (∀ u u', Reaches (fun _ _ => True) initial u → u.isRunning = false → u.next .start = some u' →
      (u'.OneLoop ↔ u.pollers = [])) ∧
    ∀ interval, checkInterval interval = .ok () → Pauses interval ∨ interval = .real .nan := by
  refine ⟨oneLoop_of_reaches h.reaches, ?_, ?_, ?_, fun interval => accepted_iff.mp⟩
  · intro t' later p stop after launched
    exact not_mayLoop_after_stop h.reaches stop after launched
  · intro newer mid past a b p q shape no_start
    rw [shape] at h
    obtain ⟨u, recent⟩ := h.of_append
    have same := same_poller no_start recent
    subst same
    exact recent.apart
  · intro u u' reached rests start
    obtain ⟨_, rfl⟩ := next_start.mp start
    rw [rests]
    exact oneLoop_launch_iff reached

theorem timely_of_asleep {time : Nat} (later : ∀ past ∈ log, past.1 ≤ time)
    (asleep : ∀ p, e ≠ .wake p) : Timely pause log time e :=
  ⟨later, fun p wakes => absurd wakes (asleep p)⟩

/-- A stop waits until the poller has taken its sample and ended, and only the one that is started
afterwards goes on. -/
theorem one_loop_after_restart :
    ∃ t, Schedule Patient 30 [(36, .sampled 1), (35, .wake 1), (5, .sampled 1), (4, .start),
        (3, .stopped), (2, .sampled 0), (1, .stop), (0, .start)] t ∧
      t.MayLoop 1 ∧ ¬ t.MayLoop 0 ∧ t.OneLoop ∧ 5 + 30 ≤ 36 := by
  have restarted : Schedule Patient 30 [(5, .sampled 1), (4, .start), (3, .stopped),
      (2, .sampled 0), (1, .stop), (0, .start)] ⟨false, [(1, .waiting)], some 1, false, 2⟩ := by
    refine .cons (.cons (.cons (.cons (.cons (.cons .nil ?_ rfl ?_) ?_ rfl ?_) ?_ rfl ?_) ?_ rfl ?_)
      ?_ rfl ?_) ?_ rfl ?_
    any_goals exact timely_of_asleep (by decide) nofun
    any_goals exact fun _ => .inr rfl
    all_goals exact nofun
  have woken : Timely 30 [(5, .sampled 1), (4, .start), (3, .stopped), (2, .sampled 0), (1, .stop),
      (0, .start)] 35 (.wake 1) := by
    refine ⟨by decide, fun p wakes since among => ?_⟩
    cases wakes
    simp only [List.mem_cons, Prod.mk.injEq, Event.sampled.injEq, List.not_mem_nil, or_false,
      reduceCtorEq, and_false, and_true, Nat.one_ne_zero] at among
    omega
  have all : Schedule Patient 30 [(36, .sampled 1), (35, .wake 1), (5, .sampled 1), (4, .start),
      (3, .stopped), (2, .sampled 0), (1, .stop), (0, .start)]
      ⟨false, [(1, .waiting)], some 1, false, 2⟩ :=
    .cons (.cons restarted nofun rfl woken) nofun rfl (timely_of_asleep (by decide) nofun)
  obtain ⟨one, -, apart, -⟩ := one_loop_when_patient all
  refine ⟨_, all, by decide, fun resumed => ?_, one, ?_⟩
  · exact absurd (one 0 1 resumed (by decide)) (by decide)
  · exact apart [] [(35, .wake 1)] _ 5 36 1 1 rfl (by simp)

/-- A poller that a stop has not waited for goes on after the next start, beside the new one, and
both take samples within one pause; and an interval of `nan`, which takes no time, is accepted. -/
theorem two_loops_after_restart :
    (∃ t, Schedule (fun _ _ => True) 30 [(5, .sampled 1), (4, .sampled 0), (3, .start),
        (2, .stopped), (1, .stop), (0, .start)] t ∧
      t.isRunning ∧ t.MayLoop 0 ∧ t.MayLoop 1 ∧ ¬ t.OneLoop) ∧
    checkInterval (.real .nan) = .ok () ∧ ¬ Pauses (.real .nan) := by
  have schedule : Schedule (fun _ _ => True) 30 [(5, .sampled 1), (4, .sampled 0), (3, .start),
      (2, .stopped), (1, .stop), (0, .start)]
      ⟨false, [(0, .waiting), (1, .waiting)], some 1, false, 2⟩ := by
    refine .cons (.cons (.cons (.cons (.cons (.cons .nil ?_ rfl ?_) ?_ rfl ?_) ?_ rfl ?_) ?_ rfl ?_)
      ?_ rfl ?_) ?_ rfl ?_
    any_goals trivial
    all_goals exact timely_of_asleep (by decide) nofun
  refine ⟨⟨_, schedule, by decide, by decide, by decide, fun one => ?_⟩, rfl, fun pauses => ?_⟩
  · exact absurd (one 0 1 (by decide) (by decide)) (by decide)
  · exact pauses.2 rfl

end ControlPanel.Tracker
