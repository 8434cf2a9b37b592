import ControlPanel.Engine
import ControlPanel.Proofs.Attempts
import ControlPanel.Proofs.Commits
import ControlPanel.Proofs.Loading

/-!
# Restarting

An engine runs on a medium that was empty at first and any write to which may fail; its worker may
be anywhere behind it. Every text that it leaves is the content of a collection at some commit, and
an engine that is started on the medium afterwards has the content of every collection whose last
write did not fail.
-/
namespace ControlPanel

structure Commit where
  collection : Collection
  store : Store

namespace Commit

def content (commit : Commit) : commit.collection.Content :=
  commit.store.content commit.collection

def write (commit : Commit) : Write :=
  ⟨commit.collection.key, Archive.encode commit.collection commit.content⟩

theorem write_key (commit : Commit) : commit.write.key = commit.collection.key := rfl

end Commit

def Outcome.commits {α : Type} (o : Outcome α) : List Commit :=
  o.change?.toList.map fun change => ⟨change.collection, o.store⟩

namespace Engine

open WriteQueue (Quiet Thinned newest ofKey)
open ScriptedMedium (last?)

def commitsOfRun {μ : Type} [Medium μ] (e : Engine μ) (line : CommandLine) (command : Value) :
    List Commit :=
  match e.snapshot with
  | (none, _) => []
  | (some s, e) =>
    (Interpreter.interpret e.platform line s e.store e.supplies).commits ++
      match e.interpret line s with
      | (.error _, _) => []
      | (.ok reply, e) => (e.store.fulfil e.supplies
          (.appendCommand command (.text reply.message) (.text reply.kind.text))).commits

def commitsOfExecute {μ : Type} [Medium μ] (e : Engine μ) (raw : String) : List Commit :=
  e.commitsOfRun (.parse (Text.trim raw)) (.text (Text.trim raw))

/-- What hosts, sensors and commands do with a store. The snapshot that a command is decided on may
be any. -/
inductive Doing (platform : Value) (s : Store) (p : Supplies) : {α : Type} → Outcome α → Prop where
  | perform (op : Operation) : op.IsShort → Doing platform s p (s.perform p op)
  | fulfil (request : Request) : request.IsShort → Doing platform s p (s.fulfil p request)
  | photo (uri : Value) : Doing platform s p (Capture.photo s p uri)
  | location (lat lng accuracy : Value) :
      Doing platform s p (Capture.location s p lat lng accuracy)
  | sample (sampling : Capture.Sampling) : Doing platform s p (Capture.takeSample s p sampling)
  | interpret (line : CommandLine) (snapshot : Snapshot) :
      Doing platform s p (Interpreter.interpret platform line snapshot s p)

/-- A run of an engine, with its commits, oldest first. Whatever the worker does happens between
the other steps; a command is run at once or in its parts. -/
inductive Run (e₀ : Engine ScriptedMedium) : List Commit → Engine ScriptedMedium → Prop where
  | created : Run e₀ [] e₀
  | act {h e} {α : Type} {o : Outcome α} : Run e₀ h e → Doing e.platform e.store e.supplies o →
      Run e₀ (h ++ o.commits) (e.apply o).2
  | look {h e} : Run e₀ h e → Run e₀ h e.snapshot.2
  | execute {h e} (raw : String) : Run e₀ h e →
      Run e₀ (h ++ e.commitsOfExecute raw) (e.execute raw).2
  | start {h e} : Run e₀ h e → Run e₀ h e.start.2
  | flush {h e} : Run e₀ h e → Run e₀ h e.flush
  | close {h e} : Run e₀ h e → Run e₀ h e.close
  | work {h e w} : Run e₀ h e → Writer.Works e.writer w → Run e₀ h { e with writer := w }

end Engine

def Writer.line (w : Writer ScriptedMedium) : List Write :=
  w.medium.attempts.map Prod.fst ++ w.queue.underway

namespace Writer

open WriteQueue

variable {w w' : Writer ScriptedMedium} {new : List Write}

theorem thinned_line (h : Carried w w' new) (key : String) :
    Thinned (ofKey key w'.line) (ofKey key (w.line ++ new)) := by
  obtain ⟨-, ended, attempts, thinned⟩ := h
  have behind := (thinned key).append_left (ofKey key (w.medium.attempts.map Prod.fst))
  simp only [← ofKey_append] at behind
  simpa [line, attempts] using behind

theorem mem_line (h : Carried w w' new) {write : Write} (mem : write ∈ w'.line) :
    write ∈ w.line ∨ write ∈ new := by
  have own : write ∈ ofKey write.key w'.line := List.mem_filter.mpr ⟨mem, by simp⟩
  have old := (thinned_line h write.key).sublist.subset own
  exact List.mem_append.mp (List.mem_filter.mp old).1

end Writer

namespace ScriptedMedium

open WriteQueue

theorem last_append {key : String} {attempts ended : List (Write × Option MediumFault)}
    (h : ofKey key (ended.map Prod.fst) = []) :
    last? key (attempts ++ ended) = last? key attempts := by
  have none_ended : ended.filter (fun a => a.1.key = key) = [] := by
    simpa [ofKey, List.filter_map, Function.comp_def] using h
  rw [last?, last?, List.filter_append, none_ended, List.append_nil]

theorem last_eq_none {key : String} {attempts : List (Write × Option MediumFault)}
    (h : last? key attempts = none) : newest key (landed attempts) = none := by
  have none_attempted : ∀ a ∈ attempts, a.1.key ≠ key := by
    simpa [last?, List.filter_eq_nil_iff] using h
  have none_landed : ofKey key (landed attempts) = [] := by
    simp only [ofKey, landed, List.filter_eq_nil_iff, List.mem_filterMap, decide_eq_true_eq]
    rintro w ⟨a, mem, some_landed⟩
    split at some_landed
    · cases some_landed
      exact none_attempted a mem
    · cases some_landed
  rw [newest, none_landed]
  rfl

/-- A text that is stored was attempted. -/
theorem mem_of_stored {m : ScriptedMedium} (sound : m.Sound) {key text : String}
    (h : m.memory.get? key = some text) : ⟨key, text⟩ ∈ m.attempts.map Prod.fst := by
  rw [sound.stored, newest, Option.map_eq_some_iff] at h
  obtain ⟨w, last, rfl⟩ := h
  obtain ⟨mem, own⟩ := List.mem_filter.mp (List.mem_of_getLast? last)
  obtain ⟨a, attempted, some_landed⟩ := List.mem_filterMap.mp mem
  have own : w.key = key := by simpa using own
  subst own
  split at some_landed
  · cases some_landed
    exact List.mem_map_of_mem attempted
  · cases some_landed

end ScriptedMedium

namespace Engine

open WriteQueue ScriptedMedium

/-- How the medium stands to a collection of an engine: nothing was written, or the newest write has
its content, or the newest write has failed and the content is older. -/
inductive InStep (e : Engine ScriptedMedium) (c : Collection) : Prop where
  | untouched : ofKey c.key e.writer.line = [] → InStep e c
  | newest : newest c.key e.writer.line = some (Archive.encode c (e.store.content c)) → InStep e c
  | failed (w : Write) (fault : MediumFault) :
      last? c.key e.writer.medium.attempts = some (w, some fault) →
      ofKey c.key e.writer.queue.underway = [] → InStep e c

structure Faithful (h : List Commit) (e : Engine ScriptedMedium) : Prop where
  steady : e.writer.Steady
  idle : e.writer.queue.inline? = none
  unloaded : e.loaded = false → e.writer.queue.worker = .absent
  clock : e.supplies.InWholeMinutes
  lasting : e.store.Lasting
  counted : e.store.changes = h.length
  committed : ∀ commit ∈ h, commit.collection.Lasting commit.content
  written : ∀ w ∈ e.writer.line, ∃ commit ∈ h, w = commit.write
  inStep : ∀ c, InStep e c

variable {e e' : Engine ScriptedMedium} {h : List Commit}

/-- Nothing that concerns a collection happens to it. -/
theorem inStep_carried {c : Collection} {new : List Write}
    (carried : Writer.Carried e.writer e'.writer new) (other : ofKey c.key new = [])
    (same : e'.store.content c = e.store.content c) (step : InStep e c) : InStep e' c := by
  have line := Writer.thinned_line carried c.key
  rw [ofKey_append, other, List.append_nil] at line
  cases step with
  | untouched none_written =>
    rw [none_written] at line
    exact .untouched (List.sublist_nil.mp line.sublist)
  | newest written =>
    refine .newest ?_
    rw [same, ← written, WriteQueue.newest, WriteQueue.newest, line.last]
  | failed w fault last none_underway =>
    obtain ⟨-, ended, attempts, thinned⟩ := carried
    have none_left := (thinned c.key).sublist
    rw [ofKey_append, ofKey_append, none_underway, other, List.append_nil, List.sublist_nil,
      List.append_eq_nil_iff] at none_left
    refine .failed w fault ?_ none_left.2
    rw [attempts, last_append none_left.1, last]

/-- Nothing new is written. -/
theorem Faithful.carried (faithful : Faithful h e) (carried : Writer.Carried e.writer e'.writer [])
    (idle : e'.writer.queue.inline? = none)
    (unloaded : e'.loaded = false → e'.writer.queue.worker = .absent)
    (clock : e'.supplies.clock.item = e.supplies.clock.item) (lasting : e'.store.Lasting)
    (changes : e'.store.changes = e.store.changes) (inStep : ∀ c, InStep e' c) :
    Faithful h e' where
  steady := carried.steady
  idle := idle
  unloaded := unloaded
  clock := by
    rw [Supplies.InWholeMinutes, clock]
    exact faithful.clock
  lasting := lasting
  counted := changes.trans faithful.counted
  committed := faithful.committed
  written w mem := by
    rcases Writer.mem_line carried mem with old | new
    · exact faithful.written w old
    · cases new
  inStep := inStep

/-- The worker may do what it likes while the collections stay as they are. -/
theorem Faithful.behind (faithful : Faithful h e) (behind : Writer.Behind e.writer e'.writer)
    (contents : ∀ c, e'.store.content c = e.store.content c)
    (changes : e'.store.changes = e.store.changes)
    (clock : e'.supplies.clock.item = e.supplies.clock.item)
    (loaded : e'.loaded = e.loaded) : Faithful h e' := by
  refine faithful.carried behind.carried (behind.idle faithful.idle) (fun before => ?_) clock
    (fun c => ?_) changes fun c => inStep_carried behind.carried rfl (contents c) (faithful.inStep c)
  · exact behind.absent (faithful.unloaded (by rw [← loaded, before]))
  · rw [contents]
    exact faithful.lasting c

theorem Faithful.look (faithful : Faithful h e) : Faithful h e.snapshot.2 :=
  faithful.behind (.refl faithful.steady) (fun _ => rfl) rfl rfl rfl

theorem Faithful.flush (faithful : Faithful h e) : Faithful h e.flush :=
  faithful.behind (Writer.behind_settle faithful.steady .normal) (fun _ => rfl) rfl rfl rfl

theorem Faithful.close (faithful : Faithful h e) : Faithful h e.close :=
  faithful.behind (Writer.behind_stop faithful.steady .null .normal) (fun _ => rfl) rfl rfl rfl

theorem Faithful.work {w : Writer ScriptedMedium} (faithful : Faithful h e)
    (works : Writer.Works e.writer w) : Faithful h { e with writer := w } :=
  faithful.behind (Writer.behind_works faithful.steady works) (fun _ => rfl) rfl rfl rfl

/-- The write of a commit is the newest of its key, and the only new one. -/
theorem Faithful.commit (faithful : Faithful h e) (commit : Commit)
    (carried : Writer.Carried e.writer e'.writer [commit.write])
    (idle : e'.writer.queue.inline? = none)
    (absent : e.writer.queue.worker = .absent → e'.writer.queue.worker = .absent)
    (own : e'.store = commit.store)
    (others : ∀ c, c ≠ commit.collection → e'.store.content c = e.store.content c)
    (changes : e'.store.changes = e.store.changes + 1)
    (lasting : commit.collection.Lasting commit.content)
    (clock : e'.supplies.clock.item = e.supplies.clock.item) (loaded : e'.loaded = e.loaded) :
    Faithful (h ++ [commit]) e' where
  steady := carried.steady
  idle := idle
  unloaded before := absent (faithful.unloaded (by rw [← loaded, before]))
  clock := by
    rw [Supplies.InWholeMinutes, clock]
    exact faithful.clock
  lasting c := by
    by_cases same : c = commit.collection
    · subst same
      rw [own]
      exact lasting
    · rw [others c same]
      exact faithful.lasting c
  counted := by rw [changes, faithful.counted, List.length_append, List.length_singleton]
  committed other mem := by
    rcases List.mem_append.mp mem with old | new
    · exact faithful.committed other old
    · rw [List.mem_singleton.mp new]
      exact lasting
  written w mem := by
    rcases Writer.mem_line carried mem with old | new
    · obtain ⟨other, mem, same⟩ := faithful.written w old
      exact ⟨other, List.mem_append_left _ mem, same⟩
    · exact ⟨commit, List.mem_append_right _ (List.mem_singleton.mpr rfl), List.mem_singleton.mp new⟩
  inStep c := by
    by_cases same : c = commit.collection
    · subst same
      refine .newest ?_
      have line := (Writer.thinned_line carried commit.collection.key).last
      have last := newest_concat commit.collection.key e.writer.line commit.write
      rw [Commit.write_key, if_pos rfl] at last
      rw [WriteQueue.newest, line, ← WriteQueue.newest, last, own]
      rfl
    · refine inStep_carried carried ?_ (others c same) (faithful.inStep c)
      have apart : commit.write.key ≠ c.key := fun key => same (Collection.key_injective key.symm)
      simp [ofKey, apart]

/-- An operation commits what it writes and leaves the other collections alone. -/
theorem Faithful.act {α : Type} {o : Outcome α} (faithful : Faithful h e)
    (orderly : o.IsOrderly e.store e.supplies) : Faithful (h ++ o.commits) (e.apply o).2 := by
  obtain ⟨result, s', p', change?, notes⟩ := o
  simp only [Outcome.IsOrderly] at orderly
  cases orderly with
  | still contents changes clock =>
    have behind : Writer.Behind e.writer (e.writer.noteAll notes) :=
      Writer.behind_journal (.refl faithful.steady) _
    simp only [Outcome.commits, Option.toList_none, List.map_nil, List.append_nil]
    exact faithful.behind behind contents changes clock rfl
  | commit c others changes clock lasting =>
    have noted : Writer.Behind e.writer
        (e.writer.note (Storage.queueingNote c (Storage.preview c (s'.content c)))) :=
      Writer.behind_journal (.refl faithful.steady) _
    obtain ⟨carried, idle, absent⟩ := Writer.carried_submit noted.carried.steady
      (noted.idle faithful.idle) ⟨c.key, Archive.encode c (s'.content c)⟩
    exact faithful.commit ⟨c, s'⟩
      (Writer.carried_journal (noted.carried.trans carried) _) idle (absent ∘ noted.absent) rfl
      others changes (lasting faithful.lasting faithful.clock) clock rfl

theorem Doing.isOrderly {platform : Value} {s : Store} {p : Supplies} {α : Type} {o : Outcome α}
    (doing : Doing platform s p o) : o.IsOrderly s p := by
  cases doing with
  | perform op short => exact Store.isOrderly_perform short
  | fulfil request short => exact Store.isOrderly_fulfil short
  | photo uri => exact Capture.isOrderly_photo uri
  | location lat lng accuracy => exact Capture.isOrderly_location lat lng accuracy
  | sample sampling => exact Capture.isOrderly_takeSample sampling
  | interpret line snapshot => exact Interpreter.isOrderly_interpret platform line snapshot

theorem Faithful.command (faithful : Faithful h e) (line : CommandLine) (command : Value) :
    Faithful (h ++ e.commitsOfRun line command) (e.run line command).2 := by
  have looked := faithful.look
  unfold commitsOfRun run
  rcases shown : e.snapshot with ⟨s?, e₁⟩
  rw [shown] at looked
  cases s? with
  | none => simpa using looked
  | some s =>
    have interpreted : Faithful _ (e₁.interpret line s).2 :=
      looked.act (Interpreter.isOrderly_interpret e₁.platform line s)
    dsimp only
    rcases ran : e₁.interpret line s with ⟨result, e₂⟩
    rw [ran] at interpreted
    cases result with
    | error failure => simpa using interpreted
    | ok reply =>
      have recorded : Faithful _ (e₂.fulfil
          (.appendCommand command (.text reply.message) (.text reply.kind.text))).2 :=
        interpreted.act (Store.isOrderly_fulfil trivial)
      rw [List.append_assoc] at recorded
      dsimp only
      split <;> rename_i ended <;> rw [ended] at recorded <;> exact recorded

def Restorable (m : ScriptedMedium) : Prop :=
  ∀ c text, m.memory.get? (Collection.key c) = some text →
    ∃ content, c.Lasting content ∧ text = Archive.encode c content

theorem Faithful.stored (faithful : Faithful h e) {key text : String}
    (stored : e.writer.medium.memory.get? key = some text) :
    ∃ commit ∈ h, ⟨key, text⟩ = commit.write :=
  faithful.written _ (List.mem_append_left _ (mem_of_stored faithful.steady.sound stored))

theorem Faithful.restorable (faithful : Faithful h e) : Restorable e.writer.medium := by
  intro c text stored
  obtain ⟨⟨c', s⟩, mem, same⟩ := faithful.stored stored
  obtain ⟨key, rfl⟩ := Write.mk.inj same
  obtain rfl := Collection.key_injective key
  exact ⟨s.content c, faithful.committed _ mem, rfl⟩

/-- A first start installs what is stored, and leaves the other collections as they are. -/
theorem start_restorable (fresh : e.loaded = false) (sound : e.writer.medium.Sound)
    (texts : Restorable e.writer.medium) :
    ∃ store journal, e.start = (.ok (), ⟨e.platform, store, e.supplies,
        { e.writer with journal := journal }.start, true⟩) ∧
      store.changes = e.store.changes ∧
      (∀ c, e.writer.medium.memory.get? c.key = none → store.content c = e.store.content c) ∧
      ∀ c content, c.Lasting content →
        e.writer.medium.memory.get? c.key = some (Archive.encode c content) →
        store.content c = content := by
  have contained (c : Collection) : Storage.Contained e.writer.medium c := by
    intro text read escapes
    rw [read_of_sound sound] at read
    obtain ⟨content, lasting, rfl⟩ := texts c text (Except.ok.inj read)
    obtain ⟨fault, decoded, -⟩ := (Archive.decode_uncontained c _).mpr escapes
    rw [Archive.decode_encode c lasting.1] at decoded
    cases decoded
  obtain ⟨loaded, ok, contents, -⟩ := Storage.load_contained contained
  have installed (c : Collection) := e.store.content_restore loaded.state c
  simp only [contents, Storage.stored?, read_of_sound sound] at installed
  refine ⟨e.store.restore loaded.state, _, by simp only [start, fresh, load, ok]; rfl, rfl,
    fun c absent => ?_, fun c content lasting stored => ?_⟩
  · rw [installed, absent]
    rfl
  · rw [installed, stored]
    simp [Archive.decode_encode c lasting.1, Except.toOption, lasting.2]

/-- Where a collection has the content of the text that is stored, the newest write has it too or
has failed. -/
theorem inStep_stored {c : Collection} (sound : e.writer.medium.Sound)
    (none_underway : e.writer.queue.underway = [])
    (stored : e.writer.medium.memory.get? c.key =
      some (Archive.encode c (e.store.content c))) : InStep e c := by
  cases last : last? c.key e.writer.medium.attempts with
  | none =>
    rw [sound.stored, last_eq_none last] at stored
    cases stored
  | some attempt =>
    obtain ⟨w, fault?⟩ := attempt
    cases fault? with
    | none =>
      obtain ⟨landed, attempted⟩ := newest_of_last last
      refine .newest ?_
      rw [Writer.line, none_underway, List.append_nil, attempted, ← landed, ← sound.stored, stored]
    | some fault => exact .failed w fault last (by rw [none_underway]; rfl)

/-- A start loads what is stored if that has not been done, and succeeds. -/
theorem Faithful.start (faithful : Faithful h e) : e.start.1 = .ok () ∧ Faithful h e.start.2 := by
  cases loaded : e.loaded with
  | true =>
    obtain ⟨carried, idle⟩ := Writer.carried_start faithful.steady faithful.idle
    have started : e.start = (.ok (), { e with writer := e.writer.start }) := by
      simp [Engine.start, loaded]
    rw [started]
    refine ⟨rfl, faithful.carried carried idle (fun before => ?_) rfl faithful.lasting rfl fun c =>
      inStep_carried carried rfl rfl (faithful.inStep c)⟩
    rw [loaded] at before
    cases before
  | false =>
    have none_underway := underway_of_quiet
      (quiet_of_absent faithful.steady.invariant faithful.idle (faithful.unloaded loaded))
    obtain ⟨store, journal, started, changes, absent, installed⟩ :=
      start_restorable loaded faithful.steady.sound faithful.restorable
    obtain ⟨carried, idle⟩ := Writer.carried_start (w := { e.writer with journal := journal })
      ⟨faithful.steady.invariant, faithful.steady.sound⟩ faithful.idle
    have carried : Writer.Carried e.writer { e.writer with journal := journal }.start [] :=
      ⟨carried.steady, carried.ended⟩
    rw [started]
    -- Every collection is as before or has the content that is stored.
    have either (c : Collection) : store.content c = e.store.content c ∨
        c.Lasting (store.content c) ∧ e.writer.medium.memory.get? c.key =
          some (Archive.encode c (store.content c)) := by
      cases stored : e.writer.medium.memory.get? c.key with
      | none => exact .inl (absent c stored)
      | some text =>
        obtain ⟨content, lasting, rfl⟩ := faithful.restorable c text stored
        rw [installed c content lasting stored]
        exact .inr ⟨lasting, rfl⟩
    refine ⟨rfl, faithful.carried carried idle nofun rfl (fun c => ?_) changes fun c => ?_⟩
    · rcases either c with same | ⟨lasting, -⟩
      · rw [same]
        exact faithful.lasting c
      · exact lasting
    · rcases either c with same | ⟨-, stored⟩
      · exact inStep_carried carried rfl same (faithful.inStep c)
      · exact inStep_carried (e := { e with store := store }) carried rfl rfl
          (inStep_stored faithful.steady.sound none_underway stored)

theorem lasting_empty (features : List Feature) (stored : ∀ f ∈ features, f.Storable) :
    ({ Store.empty with features := features } : Store).Lasting := by
  intro c
  cases c with
  | features => exact ⟨stored, rfl⟩
  | emailAddress => exact ⟨trivial, rfl⟩
  | _ => exact ⟨fun _ none_left => (nomatch none_left), rfl⟩

/-- What a new engine is made of. -/
theorem create_parts {μ : Type} {medium : μ} {platform timeout : Value} {seeded : Bool}
    {p rest : Supplies} {e : Engine μ}
    (made : create medium platform timeout seeded p = (.ok e, rest)) :
    ∃ store q, e = ⟨platform, store, q, .create medium timeout, false⟩ ∧
      Store.create seeded p = (some store, q) := by
  rcases created : Store.create seeded p with ⟨store?, q⟩
  cases store? with
  | none => simp [create, created] at made
  | some store =>
    simp only [create, created, Prod.mk.injEq, Except.ok.injEq] at made
    exact ⟨store, q, made.1.symm, rfl⟩

theorem faithful_new {script : Nat → Option MediumFault} {platform timeout : Value} {store : Store}
    {q : Supplies} (lasting : store.Lasting) (changes : store.changes = 0)
    (clock : q.InWholeMinutes) :
    Faithful [] ⟨platform, store, q, .create (.empty script) timeout, false⟩ where
  steady := ⟨initial_invariant timeout, sound_empty script⟩
  idle := rfl
  unloaded _ := rfl
  clock := clock
  lasting := lasting
  counted := changes
  committed _ none_committed := nomatch none_committed
  written _ none_written := nomatch none_written
  inStep _ := .untouched rfl

/-- A new engine on an empty medium. -/
theorem faithful_create {script : Nat → Option MediumFault} {platform timeout : Value}
    {seeded : Bool} {p rest : Supplies} (whole : p.InWholeMinutes)
    (made : create (.empty script) platform timeout seeded p = (.ok e, rest)) :
    Faithful [] e := by
  obtain ⟨store, q, rfl, created⟩ := create_parts made
  cases seeded with
  | false =>
    cases created
    exact faithful_new (lasting_empty [] fun _ none_left => (nomatch none_left)) rfl
      whole
  | true =>
    rcases shown : p.now with ⟨now?, q'⟩
    simp only [Store.create, shown, if_true, Prod.mk.injEq, Option.map_eq_some_iff] at created
    obtain ⟨⟨now, rfl, rfl⟩, rfl⟩ := created
    refine faithful_new (lasting_empty _ fun f hf => ?_) rfl ?_
    · obtain ⟨row, -, rfl⟩ := List.mem_map.mp hf
      exact Supplies.now_isWholeMinutes shown whole
    · rwa [Supplies.InWholeMinutes, (Supplies.passes_now shown).clock]

theorem faithful_run {e₀ : Engine ScriptedMedium} (created : Faithful [] e₀) (run : Run e₀ h e) :
    Faithful h e := by
  induction run with
  | created => exact created
  | act _ doing ih => exact ih.act doing.isOrderly
  | look _ ih => exact ih.look
  | execute raw _ ih => exact ih.command _ _
  | start _ ih => exact ih.start.2
  | flush _ ih => exact ih.flush
  | close _ ih => exact ih.close
  | work _ works ih => exact ih.work works

/-- An engine runs on a medium that is empty at first, with a clock whose zones are whole minutes;
any write may fail. Every text that is stored is the content of a collection at some commit, and a
collection that was never committed has none. Once the writes have come to an end, any engine that
is made on the medium starts, and has every collection whose last write did not fail as the first
engine has it. -/
theorem restart_restores {script : Nat → Option MediumFault} {platform timeout : Value}
    {seeded : Bool} {p rest : Supplies} {e₀ : Engine ScriptedMedium} (whole : p.InWholeMinutes)
    (made : create (.empty script) platform timeout seeded p = (.ok e₀, rest)) (run : Run e₀ h e) :
    e.store.changes = h.length ∧
      (∀ key text, e.writer.medium.memory.get? key = some text →
        ∃ commit ∈ h, key = commit.collection.key ∧
          text = Archive.encode commit.collection commit.content) ∧
      (∀ c : Collection, (∀ commit ∈ h, commit.collection ≠ c) →
        e.writer.medium.memory.get? c.key = none) ∧
      (Quiet e.writer.queue → ∀ platform timeout seeded p second rest,
        create e.writer.medium platform timeout seeded p = (.ok second, rest) →
        second.start.1 = .ok () ∧ ∀ (c : Collection) w,
          last? c.key e.writer.medium.attempts = some (w, none) →
          second.start.2.store.content c = e.store.content c) := by
  have faithful := faithful_run (faithful_create whole made) run
  refine ⟨faithful.counted, fun key text stored => ?_, fun c never => ?_, ?_⟩
  · obtain ⟨commit, mem, same⟩ := faithful.stored stored
    obtain ⟨own, encoded⟩ := Write.mk.inj same
    exact ⟨commit, mem, own, encoded⟩
  · cases stored : e.writer.medium.memory.get? c.key with
    | none => rfl
    | some text =>
      obtain ⟨commit, mem, same⟩ := faithful.stored stored
      exact absurd (Collection.key_injective (Write.mk.inj same).1.symm) (never commit mem)
  · intro quiet platform timeout seeded p second rest created
    obtain ⟨fresh, q, rfl, -⟩ := create_parts created
    obtain ⟨store, journal, started, -, -, installed⟩ :=
      start_restorable (e := ⟨platform, fresh, q, .create e.writer.medium timeout, false⟩) rfl
        faithful.steady.sound faithful.restorable
    rw [started]
    refine ⟨rfl, fun c w last => ?_⟩
    obtain ⟨landed, attempted⟩ := newest_of_last last
    have line : e.writer.line = e.writer.medium.attempts.map Prod.fst := by
      rw [Writer.line, underway_of_quiet quiet, List.append_nil]
    refine installed c _ (faithful.lasting c) ?_
    cases faithful.inStep c with
    | untouched none_written =>
      rw [← line, WriteQueue.newest, none_written] at attempted
      cases attempted
    | newest written =>
      rw [line, attempted] at written
      exact ((faithful.steady.sound.stored c.key).trans landed).trans written
    | failed w' fault failed _ =>
      rw [last] at failed
      cases failed

def secondFails (n : Nat) : Option MediumFault :=
  if n = 1 then some (.other "full") else none

def naiveSupplies : Supplies :=
  ⟨.ofFunction fun n => .text (toString n), .ofFunction fun _ => some ⟨⟨0, by decide⟩, none⟩⟩

def fresh (medium : ScriptedMedium) : Engine ScriptedMedium :=
  ⟨.null, .empty, naiveSupplies, .create medium .null, false⟩

def visited : Engine ScriptedMedium :=
  (((((fresh (.empty secondFails)).perform (.setEmailAddress "a")).2.perform .clearGps).2.start.2).perform
    (.setEmailAddress "b")).2.close

theorem visited_restores :
    ∃ h, Run (fresh (.empty secondFails)) h visited ∧ Quiet visited.writer.queue ∧ h.length = 3 ∧
      (fresh visited.writer.medium).start.1 = .ok () ∧
      (fresh visited.writer.medium).start.2.store.content .emailAddress = "b" := by
  have run : Run (fresh (.empty secondFails)) _ visited :=
    .close (.act (.start (.act (.act .created (.perform (.setEmailAddress "a") trivial))
      (.perform .clearGps trivial))) (.perform (.setEmailAddress "b") trivial))
  have quiet : Quiet visited.writer.queue := ⟨rfl, rfl, rfl, rfl⟩
  have whole : naiveSupplies.InWholeMinutes := by
    rintro n time ⟨⟩ o ⟨⟩
  have made : create (.empty secondFails) .null .null false naiveSupplies =
      (.ok (fresh (.empty secondFails)), naiveSupplies) := rfl
  obtain ⟨counted, -, -, restored⟩ := restart_restores whole made run
  obtain ⟨started, same⟩ := restored quiet .null .null false naiveSupplies
    (fresh visited.writer.medium) _ rfl
  exact ⟨_, run, quiet, counted.symm, started, same .emailAddress _ rfl⟩

end Engine

end ControlPanel
