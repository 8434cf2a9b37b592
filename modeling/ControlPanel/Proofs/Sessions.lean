import ControlPanel.Proofs.DistinctIds
import ControlPanel.Proofs.Restart
import ControlPanel.Proofs.WrittenTexts

/-!
# Sessions

Engines follow one another on a medium that holds nothing at first. Whatever their hosts ask for and
their feeds hand out, and however the medium fails, no collection ever holds an identifier twice.
-/
namespace ControlPanel

structure Archive.FineText (text : String) : Prop where
  visible : Json.AllVisible text.toList
  distinct : YieldsDistinct text

theorem Archive.fineText_encode {c : Collection} {content : c.Content}
    (distinct : (c.ids content).Nodup) : FineText (encode c content) :=
  ⟨Json.allVisible_of_write _, yieldsDistinct_encode distinct⟩

namespace Storage

variable {μ : Type} [Medium μ]

theorem stored_eq_some {medium : μ} {c : Collection} {content : c.Content}
    (h : stored? medium c = some content) :
    ∃ text, Medium.read medium c.key = .ok (some text) ∧ Archive.decode c text = .ok content := by
  unfold stored? at h
  split at h
  · rename_i text read
    refine ⟨text, read, ?_⟩
    cases decoded : Archive.decode c text with
    | ok content' =>
      rw [decoded] at h
      exact congrArg Except.ok (Option.some.inj h)
    | error fault => simp [decoded, Except.toOption] at h
  · cases h

variable [HonestMedium μ] {w : Writer μ}

/-- What is loaded from fine texts has no identifier twice. -/
theorem distinct_of_load {loaded : Loaded} (held : w.Carries Archive.FineText)
    (h : load w.medium = .ok loaded) :
    ∀ c, ∀ content ∈ loaded.state.content? c, (c.ids content).Nodup := by
  intro c content found
  rw [(loaded_from_own_texts h).1 c] at found
  obtain ⟨text, read, decoded⟩ := stored_eq_some found
  exact (held.held text (HonestMedium.holds_of_read read)).distinct c content decoded

theorem carries_writeThrough {change : Change} (h : w.Carries Archive.FineText)
    (distinct : (change.collection.ids change.content).Nodup) :
    (writeThrough w change).Carries Archive.FineText := by
  unfold writeThrough
  split
  · have noted : (w.note (queueingNote change.collection
        (preview change.collection change.content))).Carries Archive.FineText := h.of_same rfl rfl
    exact noted.submit (fun _ fine => fine.visible) (Archive.fineText_encode distinct)
  · exact h.of_same rfl rfl

end Storage

namespace Engine

inductive Deed (platform : Value) (s : Store) (p : Supplies) : {α : Type} → Outcome α → Prop where
  | perform (op : Operation) : Deed platform s p (s.perform p op)
  | fulfil (request : Request) : Deed platform s p (s.fulfil p request)
  | photo (uri : Value) : Deed platform s p (Capture.photo s p uri)
  | location (lat lng accuracy : Value) : Deed platform s p (Capture.location s p lat lng accuracy)
  | sample (sampling : Capture.Sampling) : Deed platform s p (Capture.takeSample s p sampling)
  | interpret (line : CommandLine) (snapshot : Snapshot) :
      Deed platform s p (Interpreter.interpret platform line snapshot s p)

theorem follows_fulfil (s : Store) (p : Supplies) (request : Request) :
    (s.fulfil p request).Follows (fun _ => True) s p :=
  .request trivial (.refl p) (Store.isEffectOf_fulfil request)

theorem follows_interpret (platform : Value) (line : CommandLine) (snapshot : Snapshot) (s : Store)
    (p : Supplies) :
    (Interpreter.interpret platform line snapshot s p).Follows (fun _ => True) s p :=
  Interpreter.follows_interpret fun _ _ _ _ _ => trivial

theorem Deed.follows {platform : Value} {s : Store} {p : Supplies} {α : Type} {o : Outcome α}
    (deed : Deed platform s p o) : o.Follows (fun _ => True) s p := by
  cases deed with
  | perform op =>
    rw [← Store.fulfil_request]
    exact follows_fulfil s p op.request
  | fulfil request => exact follows_fulfil s p request
  | photo uri => exact Capture.follows_photo trivial
  | location lat lng accuracy => exact Capture.follows_location fun _ _ => trivial
  | sample sampling => exact Capture.follows_takeSample fun _ _ _ _ _ => trivial
  | interpret line snapshot => exact follows_interpret platform line snapshot s p

variable {μ : Type} [Medium μ] [HonestMedium μ]

/-- Engines one after the other on one medium, with the writes that earlier ones left under way. A
session may end anywhere, and what it leaves lands later or never. The medium may begin to fail or
to work at any time, and may lose what it holds. -/
inductive Sessions : List Write → Engine μ → Prop where
  | first {medium : μ} {platform timeout seeded p e rest} :
      (∀ text, ¬HonestMedium.Holds medium text) → p.GivesNoBytes →
      create medium platform timeout seeded p = (.ok e, rest) → Sessions [] e
  | act {left e} {α : Type} {o : Outcome α} : Sessions left e →
      Deed e.platform e.store e.supplies o → Sessions left (e.apply o).2
  | look {left e} : Sessions left e → Sessions left e.snapshot.2
  | report {left e} (composer : Composer) : Sessions left e →
      Sessions left (e.composeReport composer).2.2
  | execute {left e} (raw : Value) : Sessions left e → Sessions left (e.executeValue raw).2
  | load {left e} : Sessions left e → Sessions left e.load.2
  | start {left e} : Sessions left e → Sessions left e.start.2
  | flush {left e} : Sessions left e → Sessions left e.flush
  | close {left e} : Sessions left e → Sessions left e.close
  | work {left e w} : Sessions left e → Writer.Works e.writer w →
      Sessions left { e with writer := w }
  | alter {left e} {medium : μ} : Sessions left e →
      (∀ text, HonestMedium.Holds medium text → HonestMedium.Holds e.writer.medium text) →
      Sessions left { e with writer := { e.writer with medium := medium } }
  | land {before after e} {write : Write} : Sessions (before ++ write :: after) e →
      Sessions (before ++ after) { e with writer := { e.writer with
        medium := (Medium.write e.writer.medium write.key write.payload).2 } }
  | next {left e platform timeout seeded p e' rest} : Sessions left e → p.GivesNoBytes →
      create e.writer.medium platform timeout seeded p = (.ok e', rest) →
      Sessions (left ++ e.writer.queue.underway) e'

variable {e e' : Engine μ}

/-- Nothing that an engine keeps or has written has an identifier twice. -/
structure Tidy (e : Engine μ) : Prop where
  texts : e.writer.Carries Archive.FineText
  distinct : e.store.IdsDistinct
  no_bytes : e.supplies.GivesNoBytes

namespace Tidy

/-- Taking from the supplies and adding to the log changes nothing. -/
theorem of_same (h : e.Tidy) (store : e'.store = e.store) (queue : e'.writer.queue = e.writer.queue)
    (medium : e'.writer.medium = e.writer.medium) (passes : e.supplies.Passes e'.supplies) :
    e'.Tidy :=
  ⟨h.texts.of_same queue medium, store ▸ h.distinct, passes.givesNoBytes h.no_bytes⟩

theorem look (h : e.Tidy) : e.snapshot.2.Tidy :=
  h.of_same rfl rfl rfl ⟨rfl, rfl⟩

theorem apply {α : Type} {fine : Request → Prop} {o : Outcome α} (h : e.Tidy)
    (follows : o.Follows fine e.store e.supplies) : (e.apply o).2.Tidy := by
  obtain ⟨distinct, no_bytes, announced⟩ := follows.idsDistinct h.no_bytes h.distinct
  refine ⟨?_, distinct, no_bytes⟩
  unfold Engine.apply
  cases made : o.change? with
  | none => exact h.texts.of_same rfl rfl
  | some change =>
    exact (Storage.carries_writeThrough h.texts (announced change made)).of_same rfl rfl

theorem run (h : e.Tidy) (line : CommandLine) (command : Value) : (e.run line command).2.Tidy := by
  have looked := h.look
  unfold Engine.run
  rcases shown : e.snapshot with ⟨s?, e₁⟩
  rw [shown] at looked
  cases s? with
  | none => exact looked
  | some s =>
    have interpreted : (e₁.interpret line s).2.Tidy :=
      looked.apply (follows_interpret e₁.platform line s e₁.store e₁.supplies)
    dsimp only
    rcases ran : e₁.interpret line s with ⟨result, e₂⟩
    rw [ran] at interpreted
    cases result with
    | error failure => exact interpreted
    | ok reply =>
      have recorded : (e₂.fulfil
          (.appendCommand command (.text reply.message) (.text reply.kind.text))).2.Tidy :=
        interpreted.apply (follows_fulfil _ _ _)
      dsimp only
      split <;> rename_i ended <;> rw [ended] at recorded <;> exact recorded

theorem execute (h : e.Tidy) (raw : Value) : (e.executeValue raw).2.Tidy := by
  unfold executeValue
  split
  · rename_i raw
    exact h.run (.parse (Text.trim raw)) (.text (Text.trim raw))
  · rename_i raw
    exact h.run (.ofBytes (Text.trimBytes raw)) (.bytes (Text.trimBytes raw))
  · exact h

theorem report (h : e.Tidy) (composer : Composer) : (e.composeReport composer).2.2.Tidy := by
  have looked := h.look
  unfold composeReport
  rcases shown : e.snapshot with ⟨s?, e₁⟩
  rw [shown] at looked
  cases s? with
  | none => exact looked
  | some s =>
    dsimp only
    split
    · exact looked
    · have timed : e₁.now.2.Tidy := looked.of_same rfl rfl rfl ⟨rfl, rfl⟩
      rcases later : e₁.now with ⟨now?, e₂⟩
      rw [later] at timed
      cases now? with
      | none => exact timed
      | some now => exact timed.of_same rfl rfl rfl (.refl _)

theorem load (h : e.Tidy) : e.load.2.Tidy := by
  unfold Engine.load
  split
  · rename_i loaded found
    exact ⟨h.texts.of_same rfl rfl,
      Store.idsDistinct_restore h.distinct (Storage.distinct_of_load h.texts found), h.no_bytes⟩
  · exact h.of_same rfl rfl rfl (.refl _)

theorem start (h : e.Tidy) : e.start.2.Tidy := by
  have started {e : Engine μ} (h : e.Tidy) (loaded : Bool) :
      ({ e with loaded := loaded, writer := e.writer.start } : Engine μ).Tidy :=
    ⟨h.texts.happen nofun, h.distinct, h.no_bytes⟩
  unfold Engine.start
  split
  · exact started h e.loaded
  · have loading := h.load
    split
    · rename_i stopped
      rw [stopped] at loading
      exact loading
    · rename_i done
      rw [done] at loading
      exact started loading true

theorem flush (h : e.Tidy) : e.flush.Tidy :=
  ⟨h.texts.run (fun _ fine => fine.visible) .normal _, h.distinct, h.no_bytes⟩

theorem close (h : e.Tidy) : e.close.Tidy :=
  ⟨h.texts.stop (fun _ fine => fine.visible) .null .normal, h.distinct, h.no_bytes⟩

theorem create {medium : μ} {platform timeout : Value} {seeded : Bool} {p rest : Supplies}
    (held : ∀ text, HonestMedium.Holds medium text → Archive.FineText text)
    (no_bytes : p.GivesNoBytes)
    (made : Engine.create medium platform timeout seeded p = (.ok e, rest)) : e.Tidy := by
  obtain ⟨store, q, rfl, created⟩ := create_parts made
  have none_underway : ∀ write ∈ (WriteQueue.initial timeout).underway,
      Archive.FineText write.payload := nofun
  exact ⟨⟨WriteQueue.initial_invariant timeout, none_underway, held⟩,
    Store.idsDistinct_create created, (Store.passes_create created).givesNoBytes no_bytes⟩

end Tidy

theorem Sessions.tidy {left : List Write} (h : Sessions left e) :
    (∀ write ∈ left, Archive.FineText write.payload) ∧ e.Tidy := by
  have visible : ∀ text, Archive.FineText text → Json.AllVisible text.toList :=
    fun _ fine => fine.visible
  induction h with
  | first none_held no_bytes made =>
    exact ⟨nofun, .create (fun text held => absurd held (none_held text)) no_bytes made⟩
  | act _ deed ih => exact ih.imp_right (·.apply deed.follows)
  | look _ ih => exact ih.imp_right .look
  | report composer _ ih => exact ih.imp_right (·.report composer)
  | execute raw _ ih => exact ih.imp_right (·.execute raw)
  | load _ ih => exact ih.imp_right .load
  | start _ ih => exact ih.imp_right .start
  | flush _ ih => exact ih.imp_right .flush
  | close _ ih => exact ih.imp_right .close
  | work _ works ih =>
    obtain ⟨fine, tidy⟩ := ih
    exact ⟨fine, tidy.texts.works visible works, tidy.distinct, tidy.no_bytes⟩
  | alter _ no_more ih =>
    obtain ⟨fine, tidy⟩ := ih
    exact ⟨fine, tidy.texts.medium fun text held => tidy.texts.held text (no_more text held),
      tidy.distinct, tidy.no_bytes⟩
  | land _ ih =>
    obtain ⟨fine, tidy⟩ := ih
    obtain ⟨earlier, others⟩ := List.forall_mem_append.mp fine
    obtain ⟨own, later⟩ := List.forall_mem_cons.mp others
    exact ⟨List.forall_mem_append.mpr ⟨earlier, later⟩,
      tidy.texts.medium (tidy.texts.held_write visible own), tidy.distinct, tidy.no_bytes⟩
  | next _ no_bytes made ih =>
    obtain ⟨fine, tidy⟩ := ih
    exact ⟨List.forall_mem_append.mpr ⟨fine, tidy.texts.underway⟩,
      .create tidy.texts.held no_bytes made⟩

/-- At every point of every session the identifiers within a collection are not empty and pairwise
distinct. -/
theorem ids_distinct_across_sessions {left : List Write} (h : Sessions left e) (c : Collection) :
    (c.ids (e.store.content c)).Nodup ∧ ∀ id ∈ c.ids (e.store.content c), id ≠ "" := by
  refine ⟨h.tidy.2.distinct c, ?_⟩
  have own {α : Type} (idOf : α → Id) (items : List α) : ∀ id ∈ items.map fun a => (idOf a).text,
      id ≠ "" := List.forall_mem_map.mpr fun a _ => (idOf a).nonempty
  cases c with
  | features => exact own Feature.id _
  | gpsLogs => exact own GpsEntry.id _
  | photoLogs => exact own PhotoEntry.id _
  | commandLogs => exact own CommandEntry.id _
  | emailQueue => exact own QueuedEmail.id _
  | emailAddress => exact fun _ none_there => nomatch none_there

def stammering : Supplies :=
  ⟨.ofFunction fun n => .text (if n = 0 then "" else if n < 3 then "a" else "b"),
    .ofFunction fun _ => some ⟨⟨1, by decide⟩, none⟩⟩

def opened (medium : MemoryMedium) : Engine MemoryMedium :=
  ⟨.null, .empty, stammering, .create medium .null, false⟩

def addition : Operation := .addFeature "n" "d" ""

def firstSession : Engine MemoryMedium :=
  let e := ((opened .empty).perform addition).2
  let full : MemoryMedium := { e.writer.medium with writeFault? := some (.other "full") }
  ({ e with writer := { e.writer with medium := full } }.perform addition).2

def secondSession : Engine MemoryMedium :=
  ((opened firstSession.writer.medium).start.2.perform addition).2

theorem repeated_ids_are_distinct :
    ∃ left, Sessions left secondSession ∧
      Collection.features.ids (firstSession.store.content .features) = ["a", "b"] ∧
      Collection.features.ids (secondSession.store.content .features) = ["a", "b"] ∧
      (Collection.features.ids (secondSession.store.content .features)).Nodup := by
  have no_bytes : stammering.GivesNoBytes := nofun
  have none_held : ∀ text, ¬HonestMedium.Holds MemoryMedium.empty text := by
    rintro text ⟨key, held⟩
    cases held
  have created (medium : MemoryMedium) :
      create medium .null .null false stammering = (.ok (opened medium), stammering) := rfl
  have first : Sessions _ firstSession :=
    .act (.alter (.act (.first none_held no_bytes (created _)) (.perform addition))
      fun _ held => held) (.perform addition)
  have second : Sessions _ secondSession :=
    .act (.start (.next first no_bytes (created _))) (.perform addition)
  exact ⟨_, second, by decide +kernel, by decide +kernel,
    (ids_distinct_across_sessions second .features).1⟩

end Engine

end ControlPanel
