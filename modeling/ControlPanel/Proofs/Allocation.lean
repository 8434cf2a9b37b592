import ControlPanel.Proofs.DistinctIds
import ControlPanel.Proofs.Histories
import ControlPanel.Proofs.Stamping

/-!
# Identifiers for new records

A request whose arguments pass their checks asks for a record that lacks only its identifier and its
time. Whatever kind of record it is, it gets the first of the next sixteen identifiers that is
neither empty nor taken, and then the time. If there is none, sixteen have been used up, the clock
has not been read, and the store is as it was.
-/
namespace ControlPanel

/-- A record but for its identifier and its time. -/
inductive Draft where
  | feature (name description category : String)
  | location (lat lng : Binary64) (accuracy : Nat)
  | photo (uri : String)
  | command (command result : String) (kind : CommandKind)
  | email (subject body : String)
  deriving Repr

namespace Draft

def collection : Draft → Collection
  | .feature _ _ _ => .features
  | .location _ _ _ => .gpsLogs
  | .photo _ => .photoLogs
  | .command _ _ _ => .commandLogs
  | .email _ _ => .emailQueue

def complete (id : Id) (now : Instant) : Draft → Produced
  | .feature name description category => .feature ⟨id, name, description, category, false, now⟩
  | .location lat lng accuracy => .gps ⟨id, lat, lng, accuracy, now⟩
  | .photo uri => .photo ⟨id, uri, now⟩
  | .command text result kind => .command ⟨id, text, result, kind, now⟩
  | .email subject body => .email ⟨id, subject, body, now, false⟩

end Draft

inductive Request.Drafts : Request → Draft → Prop where
  | feature {name description category n d c} :
      featureFields name description category = .ok (.ok ((n, d), c)) →
      Drafts (.addFeature name description category) (.feature n d c)
  | location {lat lng accuracy x y n} : Store.checkLocation lat lng accuracy = .ok (x, y, n) →
      Drafts (.appendGps lat lng accuracy) (.location x y n)
  | photo {uri trimmed text} : trim uri = .ok trimmed → trimmed.isTruthy →
      Field.text uri = .ok text → Drafts (.appendPhoto uri) (.photo text)
  | command {command result kind c m k} : Store.kindOf? kind = some k →
      Field.text command = .ok c → Field.text result = .ok m →
      Drafts (.appendCommand command result kind) (.command c m k)
  | email {subject body s b} : Field.text subject = .ok s → Field.text body = .ok b →
      Drafts (.enqueueEmail subject body) (.email s b)

def Collection.cap? : Collection → Option Nat
  | .gpsLogs => some 200
  | .photoLogs => some 100
  | .commandLogs => some 500
  | _ => none

namespace Store

def takenIds (s : Store) : Collection → List String
  | .features => s.takenFeatureIds
  | c => c.ids (s.content c)

/-- Puts a new record into its collection: at the end, or before the others of a capped history,
which loses its oldest record once it is full. -/
def receive (s : Store) : Produced → Store
  | .nothing => s
  | .feature f => { s with features := s.features ++ [f] }
  | .gps e => { s with gpsLogs := (e :: s.gpsLogs).take gpsCap }
  | .photo e => { s with photoLogs := (e :: s.photoLogs).take photoCap }
  | .command e => { s with commandLogs := (e :: s.commandLogs).take commandCap }
  | .email e => { s with emailQueue := s.emailQueue ++ [e] }

def committed (s : Store) (record : Produced) : Store :=
  { s.receive record with changes := (s.receive record).changes + 1 }

def receiptNotes : Produced → List Note
  | .feature f => [.debug .store ("Feature added id=" ++ f.id.text ++ " category=" ++ f.category)]
  | _ => []

variable {s : Store} {p : Supplies} {r : Request} {d : Draft}

theorem map_withRecord {α : Type} {f : α → Produced} {taken : List String} {c : Collection}
    {make : Id → Instant → α} {insert : α → Store} {notes : α → List Note}
    (inserted : ∀ a, insert a = s.receive (f a)) (noted : ∀ a, notes a = receiptNotes (f a)) :
    (s.withRecord p taken c make insert notes).map f =
      s.withRecord p taken c (fun id now => f (make id now)) s.receive receiptNotes := by
  unfold withRecord
  rcases p.stamp taken with ⟨failure | ⟨id, now⟩, q⟩
  · rfl
  · simp only [Outcome.map, Outcome.commit, inserted, noted]
    rfl

/-- Requests for records differ in nothing but the record. -/
theorem fulfil_of_drafts (drafts : r.Drafts d) : s.fulfil p r =
    s.withRecord p (s.takenIds d.collection) d.collection (fun id now => d.complete id now)
      s.receive receiptNotes := by
  cases drafts with
  | feature fields =>
    simp only [fulfil, requestFeature, fields]
    exact (map_withRecord (f := .feature) (fun _ => rfl) fun _ => rfl).trans rfl
  | location checked =>
    simp only [fulfil, perform, appendGps, checked]
    exact (map_withRecord (f := .gps) (fun _ => rfl) fun _ => rfl).trans rfl
  | photo trimmed given text =>
    simp only [fulfil, requestPhoto, trimmed, given, if_true, Request.textField, text]
    exact (map_withRecord (f := .photo) (fun _ => rfl) fun _ => rfl).trans rfl
  | command known command result =>
    simp only [fulfil, requestCommand, appendCommand, known, Request.textField, command, result]
    exact (map_withRecord (f := .command) (fun _ => rfl) fun _ => rfl).trans rfl
  | email subject body =>
    simp only [fulfil, requestEmail, Request.textField, subject, body]
    exact (map_withRecord (f := .email) (fun _ => rfl) fun _ => rfl).trans rfl

end Store

namespace Draft

variable {σ : Type} [Host σ] {s : Store} {d : Draft} {x : σ} {stream : Nat → String} {k : Nat}

def carryOut (d : Draft) (s : Store) (x : σ) : (Except Failure Produced × Store) × σ :=
  match Host.stamp (s.takenIds d.collection) x with
  | (.error failure, x) => ((.error failure, s), x)
  | (.ok (id, now), x) => ((.ok (d.complete id now), s.committed (d.complete id now)), x)

theorem carryOut_first (texts : ∀ j < idAttempts, Host.candidate x j = .text (stream j))
    (within : k < idAttempts) (first : FirstFree (s.takenIds d.collection) stream k) :
    d.carryOut s x = match Host.now (Host.skip (k + 1) x) with
      | (some now, y) =>
        ((.ok (d.complete first.id now.instant), s.committed (d.complete first.id now.instant)), y)
      | (none, y) => ((.error .calendarEnded, s), y) := by
  have stamped := Host.stamp_first within (texts k within) first.nonempty first.untaken
    fun j before => by
      rw [texts j (Nat.lt_trans before within)]
      exact Supplies.not_isFreeId_text.mpr (first.earlier j before)
  rw [carryOut, stamped]
  rcases Host.now (Host.skip (k + 1) x) with ⟨_ | now, y⟩ <;> rfl

theorem carryOut_stuck (texts : ∀ j < idAttempts, Host.candidate x j = .text (stream j))
    (stuck : ∀ j < idAttempts, stream j = "" ∨ stream j ∈ s.takenIds d.collection) :
    d.carryOut s x = ((.error (.refused .idsExhausted), s), Host.skip idAttempts x) := by
  have stamped : Host.stamp (s.takenIds d.collection) x = _ := Host.stamp_stuck fun j few => by
    rw [texts j few]
    exact Supplies.not_isFreeId_text.mpr (stuck j few)
  rw [carryOut, stamped]

/-- What a request leads to is its draft, carried out with the supplies. -/
theorem carryOut_supplies {r : Request} (drafts : r.Drafts d) (s : Store) (p : Supplies) :
    d.carryOut s p =
      (((s.fulfil p r).result, (s.fulfil p r).store), (s.fulfil p r).supplies) := by
  rw [Store.fulfil_of_drafts drafts, carryOut, Host.stamp_supplies, Store.withRecord]
  rcases p.stamp (s.takenIds d.collection) with ⟨failure | ⟨id, now⟩, q⟩ <;> rfl

end Draft

def Happening.retired? : Happening → Option String
  | .answered (.removeFeature _) (.ok (.feature f)) => some f.id.text
  | _ => none

theorem Effect.retired {s s' : Store} {p p' : Supplies} {r : Request}
    {result : Except Failure Produced} {change? : Option Change}
    (h : Effect s p r result s' p' change?) :
    s'.retired = (Happening.answered r result).retired?.toList ++ s.retired := by
  cases h with
  | edited _ edit => cases edit <;> rfl
  | failed => cases r <;> rfl
  | _ => rfl

namespace Chronicle

variable {k : Chronicle} {older : List String}

/-- Besides older ones, a store keeps the identifiers of the features that have been removed. -/
def Retires (k : Chronicle) (older : List String) : Prop :=
  k.store.retired = k.past.filterMap Happening.retired? ++ older

theorem Retires.next (h : k.Retires older) (demand : Demand) : (k.next demand).Retires older := by
  unfold Retires at h ⊢
  cases demand with
  | request r =>
    have removed := (Store.isEffectOf_fulfil (s := k.store) (p := k.supplies) r).retired
    simp only [Chronicle.next, List.filterMap_cons, removed, h]
    split <;> simp_all
  | restore saved => exact h

theorem Retires.run (h : k.Retires older) (demands : List Demand) :
    (k.run demands).Retires older := by
  unfold Chronicle.run
  induction demands generalizing k with
  | nil => exact h
  | cons demand rest ih => exact ih (h.next demand)

end Chronicle

namespace Store

variable {s : Store} {d : Draft}

/-- A capped history takes a new record before the others and then ends at its cap, while other
collections take it at their end. -/
theorem ids_receive (s : Store) (d : Draft) (id : Id) (now : Instant) :
    d.collection.ids ((s.receive (d.complete id now)).content d.collection) =
      match d.collection.cap? with
      | some cap => (id.text :: d.collection.ids (s.content d.collection)).take cap
      | none => d.collection.ids (s.content d.collection) ++ [id.text] := by
  cases d with
  | feature => exact List.map_append
  | email => exact List.map_append
  | _ => exact List.map_take

theorem ids_subset_takenIds (s : Store) (c : Collection) : c.ids (s.content c) ⊆ s.takenIds c := by
  cases c with
  | features => exact List.subset_append_left _ _
  | _ => exact List.Subset.refl _

/-- Which identifiers are taken: those of all features that are there or have been removed, and in a
full history also that of the record which makes room. -/
structure Reserves (s : Store) (d : Draft) : Prop where
  removed : ∀ (p : Supplies) (demands : List Demand),
    let k := (⟨s, p, []⟩ : Chronicle).run demands
    ∀ id, id ∈ k.store.takenIds .features ↔ (∃ f ∈ k.store.features, f.id.text = id) ∨
      id ∈ k.past.filterMap Happening.retired? ∨ id ∈ s.retired
  evicted : ∀ cap ∈ d.collection.cap?, ∀ kept last,
    d.collection.ids (s.content d.collection) = kept ++ [last] → kept.length + 1 = cap →
    last ∈ s.takenIds d.collection ∧
      ∀ id now, d.collection.ids ((s.committed (d.complete id now)).content d.collection) =
        id.text :: kept

theorem reserves (s : Store) (d : Draft) : s.Reserves d where
  removed p demands := by
    intro k id
    have retired : k.Retires s.retired :=
      Chronicle.Retires.run (k := ⟨s, p, []⟩) (List.nil_append _).symm demands
    rw [takenIds, takenFeatureIds, retired, List.mem_append, List.mem_append, List.mem_map]
  evicted cap capped kept last full length := by
    refine ⟨s.ids_subset_takenIds _ (by simp [full]), fun id now => ?_⟩
    rw [committed, content_changes, ids_receive, Option.mem_def.mp capped, full, ← length]
    simp

/-- A request whose arguments pass their checks, where the identifiers handed out are texts. If one
of the next sixteen is neither empty nor taken, the record gets the first such one; those up to it
have been used up, and after them the clock has been read once. Otherwise the request is refused
once sixteen have been used up, without a look at the clock, and the store is as it was. What the
host does in between may depend on everything that was demanded of it. -/
theorem first_free_identifier_is_used {r : Request} {d : Draft} (drafts : r.Drafts d) (s : Store)
    (p : Supplies) (stream : Nat → String)
    (texts : ∀ j < 16, p.ids.item (p.ids.taken + j) = .text (stream j)) :
    let taken := s.takenIds d.collection
    let o := s.fulfil p r
    ((∃ j < 16, stream j ≠ "" ∧ stream j ∉ taken) →
      ∃ k < 16, ∃ first : FirstFree taken stream k, o.supplies = p.used (k + 1) 1 ∧
        match p.clock.item p.clock.taken with
        | some now => o.result = .ok (d.complete first.id now.instant) ∧
          o.store = s.committed (d.complete first.id now.instant)
        | none => o.result = .error .calendarEnded ∧ o.store = s) ∧
    ((∀ j < 16, stream j = "" ∨ stream j ∈ taken) →
      o.supplies = p.used 16 0 ∧ o.store = s ∧ ∃ reason, o.result = .error (.refused reason) ∧
        reason.kind.name = "RubelError" ∧
        reason.message = "Could not allocate a unique id after 16 attempts") ∧
    (d.carryOut s p = ((o.result, o.store), o.supplies) ∧
      ∀ {σ : Type} [Host σ] (x : σ), (∀ j < 16, Host.candidate x j = .text (stream j)) →
        (∀ k < 16, FirstFree taken stream k →
          (d.carryOut s x).2 = (Host.now (Host.skip (k + 1) x)).2) ∧
        ((∀ j < 16, stream j = "" ∨ stream j ∈ taken) →
          (d.carryOut s x).2 = Host.skip 16 x)) ∧
    s.Reserves d := by
  intro taken o
  have carried : d.carryOut s p = ((o.result, o.store), o.supplies) :=
    Draft.carryOut_supplies drafts s p
  have texts_handed : ∀ j < idAttempts, Host.candidate p j = .text (stream j) := fun j few => by
    rw [Host.candidate_supplies]
    exact texts j few
  refine ⟨fun free => ?_, fun stuck => ?_, ⟨carried, fun x handed => ⟨?_, fun stuck => ?_⟩⟩,
    s.reserves d⟩
  · obtain ⟨k, within, first⟩ := FirstFree.exists_of_free free
    refine ⟨k, within, first, ?_⟩
    have outcome := Draft.carryOut_first texts_handed within first
    rw [carried, Host.skip_supplies, Host.now_used] at outcome
    cases shown : p.clock.item p.clock.taken with
    | none =>
      simp only [shown, Prod.mk.injEq] at outcome
      exact ⟨outcome.2, outcome.1⟩
    | some now =>
      simp only [shown, Prod.mk.injEq] at outcome
      exact ⟨outcome.2, outcome.1⟩
  · have outcome := Draft.carryOut_stuck texts_handed stuck
    rw [carried, Host.skip_supplies] at outcome
    simp only [Prod.mk.injEq] at outcome
    exact ⟨outcome.2, outcome.1.2, .idsExhausted, outcome.1.1, rfl, by decide⟩
  · intro k within first
    rw [Draft.carryOut_first handed within first]
    rcases Host.now (Host.skip (k + 1) x) with ⟨_ | now, y⟩ <;> rfl
  · exact congrArg Prod.snd (Draft.carryOut_stuck handed stuck)

def fullAlbum : Store :=
  { empty with
    photoLogs := List.replicate 99 ⟨⟨"album", by decide⟩, "camera:1", .ofUtc .first⟩ ++
      [⟨⟨"oldest", by decide⟩, "camera:0", .ofUtc .first⟩] }

def wornIds (n : Nat) : String := ["oldest", "", "album"].getD n "fresh"

def wornSupplies : Supplies :=
  ⟨.ofFunction fun n => .text (wornIds n), .ofFunction fun _ => some ⟨.first, none⟩⟩

theorem fullAlbum_takes_fourth_identifier :
    let o := fullAlbum.fulfil wornSupplies (.appendPhoto (.text "camera:2"))
    o.supplies = wornSupplies.used 4 1 ∧
      o.store.photoIds = "fresh" :: List.replicate 99 "album" ∧
        "oldest" ∈ fullAlbum.takenIds .photoLogs := by
  have drafts : (Request.appendPhoto (.text "camera:2")).Drafts (.photo "camera:2") :=
    .photo (Request.trim_text _) (by decide) rfl
  have first : FirstFree (fullAlbum.takenIds .photoLogs) wornIds 3 :=
    ⟨by decide, by decide, by decide⟩
  have texts : ∀ j < 16,
      wornSupplies.ids.item (wornSupplies.ids.taken + j) = .text (wornIds j) := by
    simp [wornSupplies, Feed.ofFunction]
  obtain ⟨found, -, -, reserved⟩ :=
    first_free_identifier_is_used drafts fullAlbum wornSupplies wornIds texts
  obtain ⟨k, -, first', used, -, store⟩ := found ⟨3, by decide, first.nonempty, first.untaken⟩
  obtain rfl := first'.unique first
  obtain ⟨taken, kept⟩ := reserved.evicted 100 rfl (List.replicate 99 "album") "oldest" rfl rfl
  intro o
  have ids : o.store.photoIds = Collection.photoLogs.ids (o.store.content .photoLogs) := rfl
  refine ⟨used, ?_, taken⟩
  rw [ids, store]
  exact kept _ _

end Store

end ControlPanel
