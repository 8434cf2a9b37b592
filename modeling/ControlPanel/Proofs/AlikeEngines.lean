import ControlPanel.Engine
import ControlPanel.Proofs.AlikeCommands
import ControlPanel.Proofs.AlikeWriters

/-!
# Engines that differ in secrets

What two engines load, save and report differs in secrets alone, if their stores, media and queues
do; and they log the same lines.
-/
namespace ControlPanel

theorem SameEnd.of_map_eq {ε α β : Type} {f : α → β} {x y : Except ε α} (h : x.map f = y.map f) :
    SameEnd (fun a b => f a = f b) x y := by
  cases x with
  | error fault =>
    cases y with
    | error fault' =>
      cases h
      exact .failed fault
    | ok => cases h
  | ok a =>
    cases y with
    | error => cases h
    | ok b => exact .done (Except.ok.inj h)

theorem SameEnd.bind {ε α β γ δ : Type} {R : α → β → Prop} {S : γ → δ → Prop} {x : Except ε α}
    {y : Except ε β} {f : α → Except ε γ} {g : β → Except ε δ} (h : SameEnd R x y)
    (then_same : ∀ a b, R a b → SameEnd S (f a) (g b)) : SameEnd S (x >>= f) (y >>= g) := by
  cases h with
  | failed fault => exact .failed fault
  | done related => exact then_same _ _ related

theorem Reply.eq_of_veil {r r' : Reply} (same : r.veil = r'.veil) :
    r.message = r'.message ∧ r.kind = r'.kind := by
  obtain ⟨success, message, -⟩ := Reply.mk.inj same
  exact ⟨message, congrArg CommandKind.ofSuccess success⟩

def SavedState.Alike (s s' : SavedState) : Prop :=
  ∀ c, Option.Rel c.Alike (s.content? c) (s'.content? c)

theorem SavedState.Alike.isSome_eq {s s' : SavedState} (h : s.Alike s') (c : Collection) :
    (s.content? c).isSome = (s'.content? c).isSome := by
  have contents := h c
  generalize s.content? c = content? at contents
  generalize s'.content? c = content'? at contents
  cases contents <;> rfl

theorem SavedState.alike_ofContents {features features' gps gps' photos photos' commands commands'
    emails emails' address address'}
    (features_alike : Option.Rel Collection.features.Alike features features')
    (gps_alike : Option.Rel Collection.gpsLogs.Alike gps gps')
    (photos_alike : Option.Rel Collection.photoLogs.Alike photos photos')
    (commands_alike : Option.Rel Collection.commandLogs.Alike commands commands')
    (emails_alike : Option.Rel Collection.emailQueue.Alike emails emails')
    (address_alike : Option.Rel Collection.emailAddress.Alike address address') :
    (ofContents features gps photos commands emails address).Alike
      (ofContents features' gps' photos' commands' emails' address') := by
  intro c
  cases c with
  | features => exact features_alike
  | gpsLogs => exact gps_alike
  | photoLogs => exact photos_alike
  | commandLogs => exact commands_alike
  | emailQueue => exact emails_alike
  | emailAddress => exact address_alike

namespace Storage

variable {μ : Type} [Medium μ] [DiscreetMedium μ] {m m' : μ}

inductive Found.Alike {c : Collection} : Found c → Found c → Prop where
  | absent : Alike .absent .absent
  | content {a b : c.Content} : c.Alike a b → Alike (.content a) (.content b)
  | error (message : String) (note : Note) : Alike (.error message note) (.error message note)

namespace Found.Alike

variable {c : Collection} {f f' : Found c}

theorem contents (h : f.Alike f') : Option.Rel c.Alike f.content? f'.content? := by
  cases h with
  | content alike => exact .some alike
  | _ => exact .none

theorem errors (h : f.Alike f') : f.error? = f'.error? := by
  cases h <;> rfl

theorem notes (h : f.Alike f') : f.note? = f'.note? := by
  cases h <;> rfl

end Found.Alike

theorem find_alike (h : DiscreetMedium.Alike m m') (c : Collection) :
    SameEnd Found.Alike (find m c) (find m' c) := by
  have read := DiscreetMedium.reads h c
  unfold find
  generalize Medium.read m c.key = text? at read
  generalize Medium.read m' c.key = text'? at read
  cases read with
  | failed fault => exact .done (.error _ _)
  | done found =>
    cases found with
    | none => exact .done .absent
    | @some text text' texts =>
      have contents := SameEnd.of_map_eq texts.contents
      dsimp only
      generalize Archive.decode c text = content? at contents
      generalize Archive.decode c text' = content'? at contents
      cases contents with
      | done alike => exact .done (.content alike)
      | failed fault =>
        dsimp only
        split
        · exact .done (.error _ _)
        · exact .failed _

theorem notesBefore_eq (h : DiscreetMedium.Alike m m') (cs : List Collection) :
    notesBefore m cs = notesBefore m' cs := by
  induction cs with
  | nil => rfl
  | cons c rest ih =>
    have found := find_alike h c
    unfold notesBefore
    generalize find m c = found? at found
    generalize find m' c = found'? at found
    cases found with
    | failed => rfl
    | done alike => simp only [alike.notes, ih]

structure Loaded.Alike (l l' : Loaded) : Prop where
  state : l.state.Alike l'.state
  notes : l.notes = l'.notes

theorem load_alike (h : DiscreetMedium.Alike m m') : SameEnd Loaded.Alike (load m) (load m') := by
  have before := notesBefore_eq h Collection.all
  refine (find_alike h .features).bind fun _ _ features => ?_
  refine (find_alike h .gpsLogs).bind fun _ _ gps => ?_
  refine (find_alike h .photoLogs).bind fun _ _ photos => ?_
  refine (find_alike h .commandLogs).bind fun _ _ commands => ?_
  refine (find_alike h .emailQueue).bind fun _ _ emails => ?_
  refine (find_alike h .emailAddress).bind fun _ _ address => ?_
  have states := SavedState.alike_ofContents features.contents gps.contents photos.contents
    commands.contents emails.contents address.contents
  refine .done ⟨states, ?_⟩
  simp only [before, features.errors, gps.errors, photos.errors, commands.errors, emails.errors,
    address.errors, states.isSome_eq]

end Storage

theorem Store.Alike.restore {s s' : Store} {saved saved' : SavedState} (h : s.Alike s')
    (alike : saved.Alike saved') : (s.restore saved).Alike (s'.restore saved') := by
  -- Where nothing is veiled, contents alike are the same.
  have same (c : Collection) (plain : ∀ content, c.veil content = content) :
      saved.content? c = saved'.content? c := by
    have contents := alike c
    generalize saved.content? c = content? at contents
    generalize saved'.content? c = content'? at contents
    cases contents with
    | none => rfl
    | @some a b contents => rw [← plain a, ← plain b, contents]
  cases h with
  | mk photos emails =>
    have saved_photos := alike .photoLogs
    have saved_emails := alike .emailQueue
    unfold Store.restore
    rw [same .features fun _ => rfl, same .gpsLogs fun _ => rfl, same .commandLogs fun _ => rfl,
      same .emailAddress fun _ => rfl]
    refine .mk ?_ ?_
    · generalize saved.content? .photoLogs = content? at saved_photos
      generalize saved'.content? .photoLogs = content'? at saved_photos
      cases saved_photos with
      | none => exact photos
      | some alike =>
        simp only [Collection.Alike, Collection.veil, Option.map_some, Option.getD_some] at alike ⊢
        rw [List.map_take, List.map_take, alike]
    · generalize saved.content? .emailQueue = content? at saved_emails
      generalize saved'.content? .emailQueue = content'? at saved_emails
      cases saved_emails with
      | none => exact emails
      | some alike => exact alike

theorem Store.Alike.restoreNote_eq {s s' : Store} (h : s.Alike s') :
    s.restoreNote = s'.restoreNote := by
  have photos := congrArg List.length (h.content .photoLogs)
  have emails := congrArg List.length (h.content .emailQueue)
  simp only [Collection.veil, Store.content, List.length_map] at photos emails
  cases h
  simp only [Store.restoreNote, photos, emails]

inductive Task where
  | note (n : Note)
  | submit (write : Write)

/-- Work that is done behind an operation: some before each of its tasks. -/
abbrev Meanwhile := List (List Work)

namespace Writer

variable {μ : Type} [Medium μ]

def doTask (w : Writer μ) : Task → Writer μ
  | .note n => w.note n
  | .submit write => w.submit write

/-- Does tasks, with work before each of them. -/
def doAmid : List Task → Meanwhile → Writer μ → Writer μ
  | [], _, w => w
  | task :: tasks, gaps, w => doAmid tasks gaps.tail ((w.workAll (gaps.headD [])).doTask task)

theorem doAmid_append (before after : List Task) (w : Writer μ) :
    doAmid (before ++ after) [] w = doAmid after [] (doAmid before [] w) := by
  induction before generalizing w with
  | nil => rfl
  | cons task before ih => exact ih _

theorem doAmid_notes (notes : List Note) (w : Writer μ) :
    doAmid (notes.map .note) [] w = w.noteAll notes := by
  induction notes generalizing w with
  | nil => rfl
  | cons n notes ih =>
    refine (ih _).trans ?_
    simp only [noteAll, doTask, note, workAll, List.headD_nil, List.foldl_nil, List.reverse_cons,
      List.append_assoc, List.singleton_append]

end Writer

inductive Task.Alike : Task → Task → Prop where
  | note (n : Note) : Alike (.note n) (.note n)
  | submit {write write' : Write} : write.Alike write' → Alike (.submit write) (.submit write')

theorem Task.alike_notes (notes : List Note) :
    List.Forall₂ Task.Alike (notes.map .note) (notes.map .note) := by
  induction notes with
  | nil => exact .nil
  | cons n notes ih => exact .cons (.note n) ih

theorem Writer.Alike.doAmid {μ : Type} [Medium μ] [DiscreetMedium μ] {w w' : Writer μ}
    {tasks tasks' : List Task} (h : w.Alike w') (alike : List.Forall₂ Task.Alike tasks tasks')
    (gaps : Meanwhile) : (Writer.doAmid tasks gaps w).Alike (Writer.doAmid tasks' gaps w') := by
  induction alike generalizing gaps w w' with
  | nil => exact h
  | cons first _ ih =>
    have worked := h.workAll (gaps.headD [])
    cases first with
    | note n => exact ih (worked.note n) gaps.tail
    | submit alike => exact ih (worked.submit alike) gaps.tail

namespace Storage

def tasks (change : Change) : List Task :=
  match change.bytes? with
  | none =>
    [.note (queueingNote change.collection (preview change.collection change.content)),
      .submit ⟨change.collection.key, Archive.encode change.collection change.content⟩]
  | some b => [.note (refusedNote change.collection (.notText (Value.bytes b).kindName))]

theorem writeThrough_eq_doAmid {μ : Type} [Medium μ] (w : Writer μ) (change : Change) :
    writeThrough w change = Writer.doAmid (tasks change) [] w := by
  unfold writeThrough tasks
  cases change.bytes? <;> rfl

theorem tasks_alike {change change' : Change} (h : change.Alike change') :
    List.Forall₂ Task.Alike (tasks change) (tasks change') := by
  cases h with
  | @mk sequence c a b bytes? alike =>
    cases bytes? with
    | some bytes => exact Task.alike_notes [_]
    | none =>
      unfold tasks
      dsimp only
      rw [queueingNote_alike alike]
      refine .cons (.note _) (.cons (.submit (.mk ?_ ?_ (Archive.textsAlike_encode alike))) .nil)
      · exact Json.allVisible_of_write _
      · exact Json.allVisible_of_write _

end Storage

namespace Outcome

variable {α β : Type}

def tasks (o : Outcome α) : List Task :=
  (o.change?.map Storage.tasks).getD [] ++ o.notes.map .note

theorem Alike.tasks {view : α → β} {o o' : Outcome α} (h : o.Alike view o') :
    List.Forall₂ Task.Alike o.tasks o'.tasks := by
  have change := h.change
  unfold Outcome.tasks
  rw [h.notes]
  refine List.rel_append ?_ (Task.alike_notes _)
  generalize o.change? = change? at change
  generalize o'.change? = change'? at change
  cases change with
  | none => exact .nil
  | some alike => exact Storage.tasks_alike alike

end Outcome

namespace Snapshot.Alike

variable {s s' : Snapshot}

theorem emailAddress_eq (h : s.Alike s') : s.emailAddress = s'.emailAddress := by
  cases h
  rfl

/-- The sync report tells how many mails wait, not what is in them. -/
theorem syncReport_eq (h : s.Alike s') (now : ClockTime) :
    Mail.syncReport s now = Mail.syncReport s' now := by
  cases h with
  | mk _ emails =>
    have waiting := congrArg List.length emails
    simp only [Collection.veil, List.length_map] at waiting
    simp only [Mail.syncReport, Mail.enabledNames, Snapshot.enabledFeatures, waiting]

end Snapshot.Alike

namespace Engine

variable {μ : Type} [Medium μ]

def applyAmid {α : Type} (e : Engine μ) (o : Outcome α) (gaps : Meanwhile) :
    Except Failure α × Engine μ :=
  (o.result, { e with
    store := o.store, supplies := o.supplies, writer := Writer.doAmid o.tasks gaps e.writer })

theorem apply_eq_applyAmid {α : Type} (e : Engine μ) (o : Outcome α) : e.apply o = e.applyAmid o [] := by
  unfold apply applyAmid Outcome.tasks
  rw [Writer.doAmid_append, Writer.doAmid_notes]
  cases o.change? with
  | none => rfl
  | some change =>
    have written := Storage.writeThrough_eq_doAmid e.writer change
    simp only [Engine.noteAll, Option.map_some, Option.getD_some, written]

def runAmid (e : Engine μ) (line : CommandLine) (command : Value) (first second : Meanwhile) :
    Except Failure Reply × Engine μ :=
  match e.snapshot with
  | (none, e) => (.error .calendarEnded, e)
  | (some s, e) =>
    match e.applyAmid (Interpreter.interpret e.platform line s e.store e.supplies) first with
    | (.error failure, e) => (.error failure, e)
    | (.ok reply, e) =>
      let request := .appendCommand command (.text reply.message) (.text reply.kind.text)
      match e.applyAmid (e.store.fulfil e.supplies request) second with
      | (.ok _, e) => (.ok reply, e)
      | (.error failure, e) => (.error failure, e)

theorem run_eq_runAmid (e : Engine μ) (line : CommandLine) (command : Value) :
    e.run line command = e.runAmid line command [] [] := by
  simp only [runAmid, ← apply_eq_applyAmid]
  rfl

def executeAmid (e : Engine μ) (raw : Value) (first second : Meanwhile) :
    Except Failure Reply × Engine μ :=
  match raw with
  | .text raw =>
    let command := Text.trim raw
    e.runAmid (.parse command) (.text command) first second
  | .bytes raw =>
    let command := Text.trimBytes raw
    e.runAmid (.ofBytes command) (.bytes command) first second
  | raw => (.error (.notTrimmable raw.kindName), e)

theorem executeValue_eq_executeAmid (e : Engine μ) (raw : Value) :
    e.executeValue raw = e.executeAmid raw [] [] := by
  cases raw <;> simp only [executeValue, execute, executeAmid, run_eq_runAmid]

def reportAmid (e : Engine μ) (composer : Composer) (gaps : Meanwhile) : Engine μ :=
  match e.snapshot with
  | (none, e) => e
  | (some s, e) =>
    if Text.isBlankText s.emailAddress then e
    else
      match e.now with
      | (none, e) => e
      | (some now, e) =>
        let (result, _, notes) := composer.handOver s.emailAddress (Mail.syncReport s now)
        let tasks := (notes ++ if result.isOk then [handedNote] else []).map Task.note
        { e with writer := Writer.doAmid tasks gaps e.writer }

theorem composeReport_eq_reportAmid (e : Engine μ) (composer : Composer) :
    (e.composeReport composer).2.2 = e.reportAmid composer [] := by
  simp only [composeReport, reportAmid, Writer.doAmid_notes]
  rcases e.snapshot with ⟨s?, e⟩
  cases s? with
  | none => rfl
  | some s =>
    dsimp only
    split
    · rfl
    · rcases e.now with ⟨now?, e⟩
      cases now? <;> rfl

variable [DiscreetMedium μ] {e e' : Engine μ}

structure Alike (e e' : Engine μ) : Prop where
  platform : e.platform = e'.platform
  store : e.store.Alike e'.store
  supplies : e.supplies = e'.supplies
  writer : e.writer.Alike e'.writer
  loaded : e.loaded = e'.loaded

namespace Alike

theorem withWriter {w w' : Writer μ} (h : e.Alike e') (alike : w.Alike w') :
    ({ e with writer := w } : Engine μ).Alike { e' with writer := w' } :=
  ⟨h.platform, h.store, h.supplies, alike, h.loaded⟩

theorem noteAll (h : e.Alike e') (notes : List Note) : (e.noteAll notes).Alike (e'.noteAll notes) :=
  h.withWriter (h.writer.noteAll notes)

theorem snapshot (h : e.Alike e') :
    Option.Rel Snapshot.Alike e.snapshot.1 e'.snapshot.1 ∧ e.snapshot.2.Alike e'.snapshot.2 := by
  unfold Engine.snapshot
  rw [← h.supplies]
  obtain ⟨taken, supplies⟩ := h.store.snapshot e.supplies
  exact ⟨taken, h.platform, h.store, supplies, h.writer, h.loaded⟩

theorem now (h : e.Alike e') : e.now.1 = e'.now.1 ∧ e.now.2.Alike e'.now.2 := by
  unfold Engine.now
  rw [← h.supplies]
  exact ⟨rfl, h.platform, h.store, rfl, h.writer, h.loaded⟩

/-- The results are given as well: they differ in what a function forgets. -/
theorem apply {α β : Type} {view : α → β} {o o' : Outcome α} (h : e.Alike e')
    (alike : o.Alike view o') (gaps : Meanwhile) :
    SameEnd (fun a b => view a = view b) (e.applyAmid o gaps).1 (e'.applyAmid o' gaps).1 ∧
      (e.applyAmid o gaps).2.Alike (e'.applyAmid o' gaps).2 :=
  ⟨.of_map_eq alike.result, h.platform, alike.store, alike.supplies,
    h.writer.doAmid alike.tasks gaps, h.loaded⟩

theorem run (h : e.Alike e') (line : CommandLine) (command : Value) (first second : Meanwhile) :
    (e.runAmid line command first second).2.Alike (e'.runAmid line command first second).2 := by
  obtain ⟨taken, looked⟩ := h.snapshot
  unfold runAmid
  generalize e.snapshot = left at taken looked
  generalize e'.snapshot = right at taken looked
  obtain ⟨s?, e⟩ := left
  obtain ⟨s'?, e'⟩ := right
  dsimp only at taken looked
  cases taken with
  | none => exact looked
  | @some s s' taken =>
    obtain ⟨replies, replied⟩ := looked.apply
      (Interpreter.alike_interpret looked.store taken e.platform line e.supplies) first
    dsimp only
    rw [← looked.platform, ← looked.supplies]
    generalize e.applyAmid _ first = left at replies replied
    generalize e'.applyAmid _ first = right at replies replied
    obtain ⟨reply?, e⟩ := left
    obtain ⟨reply'?, e'⟩ := right
    dsimp only at replies replied
    cases replies with
    | failed => exact replied
    | @done reply reply' same =>
      obtain ⟨message, kind⟩ := Reply.eq_of_veil same
      obtain ⟨entries, recorded⟩ :=
        replied.apply (replied.store.fulfil (.same (.appendCommand command (.text reply.message)
          (.text reply.kind.text))) e.supplies) second
      dsimp only
      rw [← message, ← kind, ← replied.supplies]
      generalize e.applyAmid _ second = left at entries recorded
      generalize e'.applyAmid _ second = right at entries recorded
      obtain ⟨made?, e⟩ := left
      obtain ⟨made'?, e'⟩ := right
      dsimp only at entries recorded
      cases entries <;> exact recorded

theorem execute (h : e.Alike e') (raw : Value) (first second : Meanwhile) :
    (e.executeAmid raw first second).2.Alike (e'.executeAmid raw first second).2 := by
  unfold executeAmid
  cases raw with
  | text raw => exact h.run _ _ first second
  | bytes raw => exact h.run _ _ first second
  | _ => exact h

theorem report (h : e.Alike e') (composer : Composer) (gaps : Meanwhile) :
    (e.reportAmid composer gaps).Alike (e'.reportAmid composer gaps) := by
  obtain ⟨taken, looked⟩ := h.snapshot
  unfold reportAmid
  generalize e.snapshot = left at taken looked
  generalize e'.snapshot = right at taken looked
  obtain ⟨s?, e⟩ := left
  obtain ⟨s'?, e'⟩ := right
  dsimp only at taken looked
  cases taken with
  | none => exact looked
  | @some s s' taken =>
    obtain ⟨times, timed⟩ := looked.now
    dsimp only
    generalize e.now = left at times timed
    generalize e'.now = right at times timed
    obtain ⟨now?, e⟩ := left
    obtain ⟨now'?, e'⟩ := right
    dsimp only at times timed
    subst times
    rw [← taken.emailAddress_eq]
    split
    · exact looked
    · cases now? with
      | none => exact timed
      | some now =>
        dsimp only
        rw [← taken.syncReport_eq now]
        exact timed.withWriter (timed.writer.doAmid (Task.alike_notes _) gaps)

theorem restore {saved saved' : SavedState} (h : e.Alike e') (alike : saved.Alike saved') :
    (e.restore saved).Alike (e'.restore saved') := by
  have stores := h.store.restore alike
  unfold Engine.restore
  dsimp only
  rw [stores.restoreNote_eq]
  have restored : ({ e with store := e.store.restore saved } : Engine μ).Alike
      { e' with store := e'.store.restore saved' } :=
    ⟨h.platform, stores, h.supplies, h.writer, h.loaded⟩
  exact restored.noteAll _

theorem load (h : e.Alike e') : SameEnd Eq e.load.1 e'.load.1 ∧ e.load.2.Alike e'.load.2 := by
  have loaded := Storage.load_alike h.writer.medium
  unfold Engine.load
  rw [← Storage.notesBefore_eq h.writer.medium]
  generalize Storage.load e.writer.medium = loaded? at loaded
  generalize Storage.load e'.writer.medium = loaded'? at loaded
  cases loaded with
  | failed fault => exact ⟨.failed fault, h.noteAll _⟩
  | done loads =>
    dsimp only
    rw [← loads.notes]
    exact ⟨.done rfl, (h.noteAll _).restore loads.state⟩

theorem start (h : e.Alike e') : e.start.2.Alike e'.start.2 := by
  obtain ⟨ended, loaded⟩ := h.load
  unfold Engine.start
  rw [← h.loaded]
  split
  · dsimp only
    exact ⟨h.platform, h.store, h.supplies, h.writer.start, rfl⟩
  · generalize e.load = left at ended loaded
    generalize e'.load = right at ended loaded
    obtain ⟨result, e⟩ := left
    obtain ⟨result', e'⟩ := right
    dsimp only at ended loaded
    cases ended with
    | failed fault => exact loaded
    | done => exact ⟨loaded.platform, loaded.store, loaded.supplies, loaded.writer.start, rfl⟩

/-- New engines on media alike. -/
theorem create {m m' : μ} (media : DiscreetMedium.Alike m m') (platform timeout : Value)
    (seeded : Bool) (p : Supplies) :
    SameEnd Alike (Engine.create m platform timeout seeded p).1
        (Engine.create m' platform timeout seeded p).1 ∧
      (Engine.create m platform timeout seeded p).2 =
        (Engine.create m' platform timeout seeded p).2 := by
  unfold Engine.create
  rcases Store.create seeded p with ⟨store?, p⟩
  cases store? with
  | none => exact ⟨.failed _, rfl⟩
  | some store => exact ⟨.done ⟨rfl, .refl store, rfl, .create media timeout, rfl⟩, rfl⟩

theorem restart (h : e.Alike e') (timeout : Value) (seeded : Bool) :
    (e.restart timeout seeded).2.Alike (e'.restart timeout seeded).2 := by
  have closed : e.close.Alike e'.close := h.withWriter (h.writer.stop .null .normal)
  obtain ⟨ended, left⟩ := create closed.writer.medium e.close.platform timeout seeded e.close.supplies
  unfold Engine.restart
  dsimp only
  rw [← closed.platform, ← closed.supplies]
  generalize Engine.create e.close.writer.medium _ timeout seeded _ = made at ended left
  generalize Engine.create e'.close.writer.medium _ timeout seeded _ = made' at ended left
  obtain ⟨result, p⟩ := made
  obtain ⟨result', p'⟩ := made'
  dsimp only at ended left
  cases ended with
  | failed fault =>
    dsimp only
    exact ⟨rfl, closed.store, left, closed.writer, closed.loaded⟩
  | done fresh =>
    exact fresh.withWriter ⟨fresh.writer.queue, fresh.writer.medium, closed.writer.journal⟩

end Alike

end Engine

end ControlPanel
