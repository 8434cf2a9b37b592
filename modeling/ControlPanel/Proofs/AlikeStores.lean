import ControlPanel.Capture
import ControlPanel.Command.Interpreter
import ControlPanel.Json.Writer
import ControlPanel.Proofs.Edits

/-!
# Stores that differ in secrets

Photo handles and mail bodies are secret, but for their lengths in JSON. Two stores that differ in
secrets alone go on to such stores whatever is asked of them, announce changes that differ in
secrets alone, and log the same lines.
-/
namespace ControlPanel

def Redaction.veil (s : String) : String :=
  String.ofList (List.replicate (Json.escape s.toList).length '*')

/-- Texts of which nothing differs but what they say. -/
def Redaction.EquallyLong (s t : String) : Prop :=
  (Json.quote s).length = (Json.quote t).length

instance (s t : String) : Decidable (Redaction.EquallyLong s t) :=
  inferInstanceAs (Decidable (_ = _))

theorem Redaction.EquallyLong.veil_eq {s t : String} (h : EquallyLong s t) : veil s = veil t := by
  simp only [EquallyLong, Json.quote, String.length_ofList, List.length_cons, List.length_append,
    List.length_nil, Nat.add_right_cancel_iff] at h
  simp only [veil, h]

def PhotoEntry.veil (e : PhotoEntry) : PhotoEntry := { e with uri := Redaction.veil e.uri }

def QueuedEmail.veil (e : QueuedEmail) : QueuedEmail := { e with body := Redaction.veil e.body }

def Collection.veil : (c : Collection) → c.Content → c.Content
  | .photoLogs, items => items.map PhotoEntry.veil
  | .emailQueue, items => items.map QueuedEmail.veil
  | _, content => content

def Produced.veil : Produced → Produced
  | .photo e => .photo e.veil
  | .email e => .email e.veil
  | produced => produced

def Payload.veil : Payload → Payload
  | .email e => .email e.veil
  | payload => payload

def Reply.veil (r : Reply) : Reply := { r with payload := r.payload.veil }

def Collection.Alike (c : Collection) (a b : c.Content) : Prop := c.veil a = c.veil b

theorem Collection.Alike.refl (c : Collection) (a : c.Content) : c.Alike a a := rfl

inductive Store.Alike (s : Store) : Store → Prop where
  | mk {photos : List PhotoEntry} {emails : List QueuedEmail} :
      Collection.photoLogs.Alike s.photoLogs photos →
      Collection.emailQueue.Alike s.emailQueue emails →
      Alike s { s with photoLogs := photos, emailQueue := emails }

inductive Snapshot.Alike (s : Snapshot) : Snapshot → Prop where
  | mk {photos : List PhotoEntry} {emails : List QueuedEmail} :
      Collection.photoLogs.Alike s.photoLogs photos →
      Collection.emailQueue.Alike s.emailQueue emails →
      Alike s { s with photoLogs := photos, emailQueue := emails }

theorem Store.Alike.refl (s : Store) : s.Alike s := .mk (.refl _ _) (.refl _ _)

theorem Snapshot.Alike.refl (s : Snapshot) : s.Alike s := .mk (.refl _ _) (.refl _ _)

inductive Change.Alike : Change → Change → Prop where
  | mk {sequence : Nat} {c : Collection} {a b : c.Content} {bytes? : Option (List UInt8)} :
      c.Alike a b → Alike ⟨sequence, c, a, bytes?⟩ ⟨sequence, c, b, bytes?⟩

/-- Outcomes that differ in secrets alone, those of the results being what a function forgets. -/
structure Outcome.Alike {α β : Type} (view : α → β) (o o' : Outcome α) : Prop where
  result : o.result.map view = o'.result.map view
  store : o.store.Alike o'.store
  supplies : o.supplies = o'.supplies
  change : Option.Rel Change.Alike o.change? o'.change?
  notes : o.notes = o'.notes

section

variable {α β : Type} {view : α → β} {s s' t t' : Store} {p : Supplies}

theorem Store.Alike.content (h : s.Alike s') (c : Collection) :
    c.Alike (s.content c) (s'.content c) := by
  cases h with
  | mk photos emails =>
    cases c with
    | photoLogs => exact photos
    | emailQueue => exact emails
    | _ => exact .refl _ _

theorem Store.Alike.photoIds (h : s.Alike s') : s.photoIds = s'.photoIds := by
  have same := congrArg (List.map fun e : PhotoEntry => e.id.text) (h.content .photoLogs)
  simpa [Store.photoIds, Collection.veil, Store.content, PhotoEntry.veil, Function.comp_def] using same

theorem Store.Alike.emailIds (h : s.Alike s') : s.emailIds = s'.emailIds := by
  have same := congrArg (List.map fun e : QueuedEmail => e.id.text) (h.content .emailQueue)
  simpa [Store.emailIds, Collection.veil, Store.content, QueuedEmail.veil, Function.comp_def] using same

theorem Store.Alike.snapshot (h : s.Alike s') (p : Supplies) :
    Option.Rel Snapshot.Alike (s.snapshot p).1 (s'.snapshot p).1 ∧
      (s.snapshot p).2 = (s'.snapshot p).2 := by
  cases h with
  | mk photos emails =>
    unfold Store.snapshot
    rcases p.now with ⟨now?, p'⟩
    refine ⟨?_, rfl⟩
    cases now? with
    | none => exact .none
    | some now => exact .some (.mk photos emails)

namespace Outcome.Alike

theorem fail (failure : Failure) (h : s.Alike s') :
    Alike view (.fail s p failure) (.fail s' p failure) :=
  ⟨rfl, h, rfl, .none, rfl⟩

theorem refuse (reason : Refusal) (h : s.Alike s') :
    Alike view (.refuse s p reason) (.refuse s' p reason) :=
  fail _ h

theorem unchanged {a a' : α} (same : view a = view a') (h : s.Alike s') :
    Alike view (.unchanged s p a) (.unchanged s' p a') :=
  ⟨congrArg Except.ok same, h, rfl, .none, rfl⟩

theorem commit {a a' : α} {c : Collection} {notes : List Note} (same : view a = view a')
    (h : t.Alike t') : Alike view (.commit t p c a notes) (.commit t' p c a' notes) := by
  have further : ({ t with changes := t.changes + 1 } : Store).Alike
      { t' with changes := t'.changes + 1 } := by
    cases h with
    | mk photos emails => exact .mk photos emails
  have sequence : t.changes = t'.changes := by
    cases h
    rfl
  refine ⟨congrArg Except.ok same, further, rfl, .some ?_, rfl⟩
  rw [sequence]
  exact .mk (further.content c)

/-- Both fail for the same reason, or both succeed. -/
theorem results {o o' : Outcome α} (h : Alike view o o') :
    (∃ failure, o.result = .error failure ∧ o'.result = .error failure) ∨
      ∃ a a', o.result = .ok a ∧ o'.result = .ok a' ∧ view a = view a' := by
  have same := h.result
  rcases done : o.result with failure | a <;> rcases done' : o'.result with failure' | a' <;>
    rw [done, done'] at same
  · cases same
    exact .inl ⟨failure, rfl, rfl⟩
  · cases same
  · cases same
  · exact .inr ⟨a, a', rfl, rfl, Except.ok.inj same⟩

theorem map {γ δ : Type} {view' : γ → δ} {f : γ → α} {o o' : Outcome γ} (h : Alike view' o o')
    (same : ∀ a a', view' a = view' a' → view (f a) = view (f a')) :
    Alike view (o.map f) (o'.map f) := by
  refine ⟨?_, h.store, h.supplies, h.change, h.notes⟩
  rcases h.results with ⟨failure, failed, failed'⟩ | ⟨a, a', done, done', alike⟩
  · simp only [Outcome.map, failed, failed', Except.map]
  · simp only [Outcome.map, done, done', Except.map, same a a' alike]

/-- Results without secrets are the same. -/
theorem map_same {γ : Type} {o o' : Outcome γ} (h : Alike id o o') (f : γ → α) :
    Alike view (o.map f) (o'.map f) :=
  h.map fun _ _ same => congrArg (view ∘ f) same

theorem withBytes {o o' : Outcome α} (h : Alike view o o') (bytes? : Option (List UInt8)) :
    Alike view { o with change? := o.change?.map fun change => { change with bytes? := bytes? } }
      { o' with change? := o'.change?.map fun change => { change with bytes? := bytes? } } := by
  rcases o with ⟨result, store, supplies, change?, notes⟩
  rcases o' with ⟨result', store', supplies', change'?, notes'⟩
  obtain ⟨result, store, supplies, change, notes⟩ := h
  refine ⟨result, store, supplies, ?_, notes⟩
  cases change with
  | none => exact .none
  | some alike =>
    cases alike with
    | mk content => exact .some (.mk content)

theorem withRecord {taken taken' : List String} {c : Collection} {make make' : Id → Instant → α}
    {insert insert' : α → Store} {notes notes' : α → List Note} (h : s.Alike s')
    (same : taken = taken') (made : ∀ id now, view (make id now) = view (make' id now))
    (inserted : ∀ id now, (insert (make id now)).Alike (insert' (make' id now)))
    (noted : ∀ id now, notes (make id now) = notes' (make' id now)) :
    Alike view (s.withRecord p taken c make insert notes)
      (s'.withRecord p taken' c make' insert' notes') := by
  unfold Store.withRecord
  rw [← same]
  split
  · exact fail _ h
  · rename_i id now p' _
    dsimp only
    rw [noted]
    exact commit (made id now) (inserted id now)

theorem withFields {γ : Type} {taken taken' : List String} {fields : Checked γ}
    {make make' : γ → Outcome α} (h : s.Alike s') (same : taken = taken')
    (made : ∀ a, Alike view (make a) (make' a)) :
    Alike view (s.withFields p taken fields make) (s'.withFields p taken' fields make') := by
  unfold Store.withFields
  rw [← same]
  split
  · exact made _
  · split <;> exact fail _ h

theorem noting {note : α → Note} {o o' : Outcome α} (h : Alike view o o')
    (same : ∀ a a', view a = view a' → note a = note a') :
    Alike view (Capture.noting o note) (Capture.noting o' note) := by
  rcases h.results with ⟨failure, failed, failed'⟩ | ⟨a, a', done, done', alike⟩
  · simp only [Capture.noting, failed, failed']
    exact h
  · simp only [Capture.noting, done, done']
    refine ⟨congrArg Except.ok alike, h.store, h.supplies, h.change, ?_⟩
    dsimp only
    rw [h.notes, same a a' alike]

end Outcome.Alike

namespace Store.Alike

/-- A record goes to the front of a history. -/
theorem content_cons_take {α : Type} {veil : α → α} {a b : α} {as bs : List α} (cap : Nat)
    (first : veil a = veil b) (others : as.map veil = bs.map veil) :
    ((a :: as).take cap).map veil = ((b :: bs).take cap).map veil := by
  rw [List.map_take, List.map_take, List.map_cons, List.map_cons, first, others]

theorem insertPhoto (h : s.Alike s') (p : Supplies) {uri uri' : String}
    (alike : Redaction.veil uri = Redaction.veil uri') :
    (s.insertPhoto p uri).Alike PhotoEntry.veil (s'.insertPhoto p uri') := by
  have ids := h.photoIds
  cases h with
  | mk photos emails =>
    have made (id : Id) (now : Instant) :
        PhotoEntry.veil ⟨id, uri, now⟩ = PhotoEntry.veil ⟨id, uri', now⟩ := by
      simp only [PhotoEntry.veil, alike]
    refine .withRecord (.mk photos emails) ids made (fun id now => .mk ?_ emails) fun _ _ => rfl
    exact content_cons_take photoCap (made id now) photos

theorem enqueueEmail (h : s.Alike s') (p : Supplies) (subject : String) {body body' : String}
    (alike : Redaction.veil body = Redaction.veil body') :
    (s.enqueueEmail p subject body).Alike QueuedEmail.veil (s'.enqueueEmail p subject body') := by
  have ids := h.emailIds
  cases h with
  | mk photos emails =>
    have made (id : Id) (now : Instant) : QueuedEmail.veil ⟨id, subject, body, now, false⟩ =
        QueuedEmail.veil ⟨id, subject, body', now, false⟩ := by
      simp only [QueuedEmail.veil, alike]
    refine .withRecord (.mk photos emails) ids made (fun id now => .mk photos ?_) fun _ _ => rfl
    simp only [Collection.Alike, Collection.veil, List.map_append, List.map_cons, List.map_nil,
      made id now]
    exact congrArg (· ++ _) emails

theorem markSent_map (id : String) (queue : List QueuedEmail) :
    markSent? id (queue.map QueuedEmail.veil) =
      (markSent? id queue).map fun (e, queue) => (e.veil, queue.map QueuedEmail.veil) := by
  induction queue with
  | nil => rfl
  | cons e rest ih =>
    by_cases own : e.id.text = id
    · have own' : e.veil.id.text = id := own
      simp only [List.map_cons, markSent?, own, own', if_true]
      rfl
    · have other : ¬ e.veil.id.text = id := own
      simp only [List.map_cons, markSent?, own, other, if_false, ih, Option.map_map]
      rfl

theorem markEmailSent (h : s.Alike s') (p : Supplies) (id : String) :
    (s.markEmailSent p id).Alike QueuedEmail.veil (s'.markEmailSent p id) := by
  cases h with
  | @mk photos emails photos_alike emails_alike =>
    have alike : s.Alike { s with photoLogs := photos, emailQueue := emails } :=
      .mk photos_alike emails_alike
    have marked : (markSent? id s.emailQueue).map (fun (e, queue) => (e.veil, queue.map QueuedEmail.veil)) =
        (markSent? id emails).map fun (e, queue) => (e.veil, queue.map QueuedEmail.veil) := by
      rw [← markSent_map, ← markSent_map]
      exact congrArg _ emails_alike
    unfold Store.markEmailSent
    dsimp only
    rcases found : markSent? id s.emailQueue with - | ⟨e, queue⟩ <;>
      rcases found' : markSent? id emails with - | ⟨e', queue'⟩
    · exact .refuse _ alike
    · simp [found, found'] at marked
    · simp [found, found'] at marked
    · rw [found, found'] at marked
      obtain ⟨same, others⟩ := Prod.mk.inj (Option.some.inj marked)
      exact .commit same (.mk photos_alike others)

theorem insertFeature (h : s.Alike s') (p : Supplies) (name description category : String) :
    (s.insertFeature p name description category).Alike id
      (s'.insertFeature p name description category) := by
  cases h with
  | mk photos emails =>
    exact .withRecord (.mk photos emails) rfl (fun _ _ => rfl) (fun _ _ => .mk photos emails)
      fun _ _ => rfl

theorem requestFeature (h : s.Alike s') (p : Supplies) (name description category : Value) :
    (s.requestFeature p name description category).Alike id
      (s'.requestFeature p name description category) := by
  have taken : s.takenFeatureIds = s'.takenFeatureIds := by
    cases h
    rfl
  unfold Store.requestFeature
  split
  · exact .fail _ h
  · exact .withFields h taken fun _ => h.insertFeature p ..

theorem removeFeature (h : s.Alike s') (p : Supplies) (id' : String) :
    (s.removeFeature p id').Alike id (s'.removeFeature p id') := by
  cases h with
  | mk photos emails =>
    unfold Store.removeFeature
    dsimp only
    split
    · exact .unchanged rfl (.mk photos emails)
    · exact .commit rfl (.mk photos emails)

theorem toggleFeature (h : s.Alike s') (p : Supplies) (id' : String) :
    (s.toggleFeature p id').Alike id (s'.toggleFeature p id') := by
  cases h with
  | mk photos emails =>
    unfold Store.toggleFeature
    dsimp only
    split
    · exact .refuse _ (.mk photos emails)
    · exact .commit rfl (.mk photos emails)

theorem setFeatureEnabled (h : s.Alike s') (p : Supplies) (id' : String) (on : Bool) :
    (s.setFeatureEnabled p id' on).Alike id (s'.setFeatureEnabled p id' on) := by
  cases h with
  | mk photos emails =>
    unfold Store.setFeatureEnabled
    dsimp only
    split
    · exact .refuse _ (.mk photos emails)
    · split
      · exact .unchanged rfl (.mk photos emails)
      · exact .commit rfl (.mk photos emails)

theorem appendGps (h : s.Alike s') (p : Supplies) (lat lng accuracy : Value) :
    (s.appendGps p lat lng accuracy).Alike id (s'.appendGps p lat lng accuracy) := by
  cases h with
  | mk photos emails =>
    unfold Store.appendGps
    split
    · exact .fail _ (.mk photos emails)
    · exact .withRecord (.mk photos emails) rfl (fun _ _ => rfl) (fun _ _ => .mk photos emails)
        fun _ _ => rfl

theorem appendCommand (h : s.Alike s') (p : Supplies) (command result : String) (kind : Value) :
    (s.appendCommand p command result kind).Alike id (s'.appendCommand p command result kind) := by
  cases h with
  | mk photos emails =>
    unfold Store.appendCommand
    split
    · exact .refuse _ (.mk photos emails)
    · exact .withRecord (.mk photos emails) rfl (fun _ _ => rfl) (fun _ _ => .mk photos emails)
        fun _ _ => rfl

theorem requestCommand (h : s.Alike s') (p : Supplies) (command result kind : Value) :
    (s.requestCommand p command result kind).Alike id (s'.requestCommand p command result kind) := by
  have ids : s.commandIds = s'.commandIds := by
    cases h
    rfl
  unfold Store.requestCommand
  split
  · exact .refuse _ h
  · exact .withFields h ids fun _ => h.appendCommand p ..

theorem setEmailAddress (h : s.Alike s') (p : Supplies) (address : String) :
    (s.setEmailAddress p address).Alike id (s'.setEmailAddress p address) := by
  cases h with
  | mk photos emails => exact .commit rfl (.mk photos emails)

theorem clearCommands (h : s.Alike s') :
    (s.clearCommands p).Alike id (s'.clearCommands p) := by
  cases h with
  | mk photos emails => exact .commit rfl (.mk photos emails)

theorem clearGps (h : s.Alike s') : (s.clearGps p).Alike id (s'.clearGps p) := by
  cases h with
  | mk photos emails => exact .commit rfl (.mk photos emails)

theorem setOnline {online : Bool} (h : s.Alike s') :
    (s.setOnline p online).Alike id (s'.setOnline p online) := by
  cases h with
  | mk photos emails => exact .unchanged rfl (.mk photos emails)

theorem requestAddress (h : s.Alike s') (p : Supplies) (address : GivenAddress) :
    (s.requestAddress p address).Alike id (s'.requestAddress p address) :=
  (h.setEmailAddress p address.text).withBytes address.bytes?

/-- Photos with any two handles that are not blank are recorded, or neither is. -/
theorem requestPhoto (h : s.Alike s') (p : Supplies) (uri : Value) :
    (s.requestPhoto p uri).Alike PhotoEntry.veil (s'.requestPhoto p uri) := by
  unfold Store.requestPhoto
  split
  · exact .fail _ h
  · split
    · exact .withFields h h.photoIds fun text => h.insertPhoto p rfl
    · exact .refuse _ h

theorem requestPhoto_text (h : s.Alike s') (p : Supplies) {uri uri' : String}
    (handle : Text.isBlankText uri = false) (handle' : Text.isBlankText uri' = false)
    (alike : Redaction.EquallyLong uri uri') :
    (s.requestPhoto p (.text uri)).Alike PhotoEntry.veil (s'.requestPhoto p (.text uri')) := by
  rw [Store.requestPhoto_text, Store.requestPhoto_text, Store.appendPhoto, Store.appendPhoto, handle,
    handle']
  exact h.insertPhoto p alike.veil_eq

theorem requestEmail (h : s.Alike s') (p : Supplies) (subject body : Value) :
    (s.requestEmail p subject body).Alike QueuedEmail.veil (s'.requestEmail p subject body) :=
  .withFields h h.emailIds fun _ => h.enqueueEmail p _ rfl

theorem requestEmail_text (h : s.Alike s') (p : Supplies) (subject : Value) {body body' : String}
    (alike : Redaction.EquallyLong body body') :
    (s.requestEmail p subject (.text body)).Alike QueuedEmail.veil
      (s'.requestEmail p subject (.text body')) := by
  have read (text : String) : Request.textField "body" (.text text) = .ok text := rfl
  unfold Store.requestEmail
  rw [read, read, h.emailIds]
  -- A body that is a text is never wrong, so what goes wrong is up to the subject.
  cases Request.textField "subject" subject with
  | ok subject => exact h.enqueueEmail p subject alike.veil_eq
  | invalid errors =>
    unfold Store.withFields
    dsimp only [Checked.and, Checked.value?, Checked.errors]
    split <;> exact .fail _ h
  | fault cause =>
    unfold Store.withFields
    dsimp only [Checked.and, Checked.value?, Checked.errors]
    split <;> exact .fail _ h

end Store.Alike

/-- Requests that differ in the handle of a photo or the body of a mail, or not at all. -/
inductive Request.Alike : Request → Request → Prop where
  | same (request : Request) : Alike request request
  | photo {uri uri' : String} : Text.isBlankText uri = false → Text.isBlankText uri' = false →
      Redaction.EquallyLong uri uri' → Alike (.appendPhoto (.text uri)) (.appendPhoto (.text uri'))
  | email {subject : Value} {body body' : String} : Redaction.EquallyLong body body' →
      Alike (.enqueueEmail subject (.text body)) (.enqueueEmail subject (.text body'))

theorem Store.Alike.fulfil {request request' : Request} (h : s.Alike s')
    (alike : request.Alike request') (p : Supplies) :
    (s.fulfil p request).Alike Produced.veil (s'.fulfil p request') := by
  cases alike with
  | photo handle handle' alike =>
    exact .map (h.requestPhoto_text p handle handle' alike) fun _ _ => congrArg Produced.photo
  | email alike =>
    exact .map (h.requestEmail_text p _ alike) fun _ _ => congrArg Produced.email
  | same =>
    cases request with
    | addFeature name description category => exact (h.requestFeature p ..).map_same _
    | removeFeature id =>
      cases id with
      | text id => exact (h.removeFeature p id).map_same _
      | _ => exact .unchanged rfl h
    | toggleFeature id =>
      cases id with
      | text id => exact (h.toggleFeature p id).map_same _
      | _ => exact .refuse _ h
    | setFeatureEnabled id enabled =>
      cases id with
      | text id => exact (h.setFeatureEnabled p id _).map_same _
      | _ => exact .refuse _ h
    | appendGps lat lng accuracy => exact (h.appendGps p ..).map_same _
    | appendPhoto uri => exact .map (h.requestPhoto p uri) fun _ _ => congrArg Produced.photo
    | appendCommand command result kind => exact (h.requestCommand p ..).map_same _
    | clearCommands => exact h.clearCommands.map_same _
    | clearGps => exact h.clearGps.map_same _
    | enqueueEmail subject body =>
      exact .map (h.requestEmail p subject body) fun _ _ => congrArg Produced.email
    | markEmailSent id =>
      cases id with
      | text id => exact .map (h.markEmailSent p id) fun _ _ => congrArg Produced.email
      | _ => exact .refuse _ h
    | setEmailAddress address => exact (h.requestAddress p address).map_same _
    | setOnline online => exact h.setOnline.map_same _

end

end ControlPanel
