import ControlPanel.Proofs.FeatureIdentity
import Mathlib.Data.List.Forall2

/-!
# The order of mails and features

Mails and features are added behind those that are there. As long as nothing is installed from
storage, every mail keeps its place, and the features that are left keep their order, before all
that have been added since.
-/
namespace ControlPanel

/-- The same mail. It may have been marked as sent in between, but not the other way round. -/
structure QueuedEmail.IsStill (e e' : QueuedEmail) : Prop where
  same : e' = { e with sent := e'.sent }
  sent : e.sent = true → e'.sent = true

theorem QueuedEmail.IsStill.refl (e : QueuedEmail) : e.IsStill e :=
  ⟨rfl, fun sent => sent⟩

theorem QueuedEmail.IsStill.trans {e e' e'' : QueuedEmail} (first : e.IsStill e')
    (second : e'.IsStill e'') : e.IsStill e'' := by
  constructor
  · have same := second.same
    rw [first.same] at same
    exact same
  · intro sent
    exact second.sent (first.sent sent)

theorem Feature.IsStill.switched (f : Feature) (on : Bool) :
    f.IsStill { f with enabled := on } := rfl

def QueuedEmail.Stay (queue queue' : List QueuedEmail) : Prop :=
  List.Forall₂ IsStill queue queue'

def Feature.Remain (left features : List Feature) : Prop :=
  List.SublistForall₂ (fun g f => f.IsStill g) left features

instance : Std.Refl QueuedEmail.IsStill := ⟨.refl⟩

instance : Std.Refl fun g f : Feature => f.IsStill g := ⟨.refl⟩

instance : IsTrans Feature fun g f => f.IsStill g :=
  ⟨fun _ _ _ later earlier => earlier.trans later⟩

theorem forall₂_replace {α : Type} {R : α → α → Prop} [Std.Refl R] {before after : List α} {a b : α}
    (own : R a b) : List.Forall₂ R (before ++ a :: after) (before ++ b :: after) :=
  List.rel_append (List.forall₂_refl before) (.cons own (List.forall₂_refl after))

namespace QueuedEmail.Stay

variable {queue queue' queue'' : List QueuedEmail}

theorem refl (queue : List QueuedEmail) : Stay queue queue := List.forall₂_refl queue

theorem trans (first : Stay queue queue') (second : Stay queue' queue'') : Stay queue queue'' := by
  induction first generalizing queue'' with
  | nil =>
    cases second
    exact .nil
  | cons still _ ih =>
    cases second with
    | cons still' rest' => exact .cons (still.trans still') (ih rest')

theorem append_right (stay : Stay queue queue') (more : List QueuedEmail) :
    Stay (queue ++ more) (queue' ++ more) :=
  List.rel_append stay (refl more)

/-- A queue that has grown begins with the mails that were there. -/
theorem of_append {more : List QueuedEmail} (stay : Stay (queue ++ more) queue') :
    ∃ kept new, queue' = kept ++ new ∧ Stay queue kept := by
  refine ⟨queue'.take queue.length, queue'.drop queue.length, ?_, ?_⟩
  · rw [List.take_append_drop]
  · have flipped := List.forall₂_take_append queue' queue more stay.flip
    exact flipped.flip

end QueuedEmail.Stay

namespace Feature.Remain

variable {left middle features : List Feature}

theorem of_sublist (sublist : left.Sublist features) : Remain left features :=
  sublist.sublistForall₂

theorem refl (features : List Feature) : Remain features features :=
  of_sublist (.refl features)

theorem trans (later : Remain left middle) (earlier : Remain middle features) :
    Remain left features :=
  List.SublistForall₂.is_trans.trans _ _ _ later earlier

theorem append_right (remain : Remain left features) (more : List Feature) :
    Remain (left ++ more) (features ++ more) := by
  obtain ⟨origins, same, sublist⟩ := List.sublistForall₂_iff.mp remain
  refine List.sublistForall₂_iff.mpr ⟨origins ++ more, ?_, sublist.append_right more⟩
  exact List.rel_append same (List.forall₂_refl more)

/-- What is left of two lists is what is left of the first, and then what is left of the second. -/
theorem of_append {more : List Feature} (remain : Remain left (features ++ more)) :
    ∃ kept new, left = kept ++ new ∧ Remain kept features ∧ Remain new more := by
  obtain ⟨origins, same, sublist⟩ := List.sublistForall₂_iff.mp remain
  obtain ⟨first, second, rfl, earlier, later⟩ := List.sublist_append_iff.mp sublist
  refine ⟨left.take first.length, left.drop first.length, ?_, ?_, ?_⟩
  · rw [List.take_append_drop]
  · exact List.sublistForall₂_iff.mpr ⟨first, List.forall₂_take_append _ _ _ same, earlier⟩
  · exact List.sublistForall₂_iff.mpr ⟨second, List.forall₂_drop_append _ _ _ same, later⟩

end Feature.Remain

theorem Feature.Remain.switched {before after : List Feature} (f : Feature) (on : Bool) :
    Remain (before ++ { f with enabled := on } :: after) (before ++ f :: after) :=
  List.sublistForall₂_iff.mpr ⟨_, forall₂_replace (IsStill.switched f on), .refl _⟩

def Store.additions (s t : Store) : List Feature :=
  t.features.drop s.features.length

def Request.added : Request → Except Failure Produced → List Feature
  | .addFeature .., .ok (.feature f) => [f]
  | _, _ => []

theorem Request.added_error (request : Request) (failure : Failure) :
    request.added (.error failure) = [] := by
  cases request <;> rfl

/-- A store has grown out of another: no mail has left its place, and what is left of the features
and of those that were added is in order. -/
structure Store.GrowsInto (s : Store) (added : List Feature) (t : Store) : Prop where
  queue : ∃ queued, QueuedEmail.Stay (s.emailQueue ++ queued) t.emailQueue
  features : Feature.Remain t.features (s.features ++ added)

section

variable {s s' t u : Store} {p p' q : Supplies} {added more : List Feature} {request : Request}
  {result : Except Failure Produced} {change? : Option Change}

theorem Store.GrowsInto.of_features (queue : t.emailQueue = s.emailQueue)
    (remain : Feature.Remain t.features (s.features ++ added)) : s.GrowsInto added t := by
  constructor
  · refine ⟨[], ?_⟩
    rw [queue, List.append_nil]
    exact .refl s.emailQueue
  · exact remain

theorem Store.GrowsInto.of_left (queue : t.emailQueue = s.emailQueue)
    (remain : Feature.Remain t.features s.features) : s.GrowsInto [] t := by
  apply of_features queue
  rwa [List.append_nil]

theorem Store.GrowsInto.of_queue (queued : List QueuedEmail)
    (stay : QueuedEmail.Stay (s.emailQueue ++ queued) t.emailQueue)
    (features : t.features = s.features) : s.GrowsInto [] t := by
  constructor
  · exact ⟨queued, stay⟩
  · rw [features, List.append_nil]
    exact .refl s.features

theorem Store.GrowsInto.of_same (queue : t.emailQueue = s.emailQueue)
    (features : t.features = s.features) : s.GrowsInto [] t := by
  apply of_left queue
  rw [features]
  exact .refl s.features

theorem Store.GrowsInto.trans (first : s.GrowsInto added t) (second : t.GrowsInto more u) :
    s.GrowsInto (added ++ more) u := by
  constructor
  · obtain ⟨queued, stay⟩ := first.queue
    obtain ⟨queued', stay'⟩ := second.queue
    refine ⟨queued ++ queued', ?_⟩
    rw [← List.append_assoc]
    exact (stay.append_right queued').trans stay'
  · rw [← List.append_assoc]
    exact second.features.trans (first.features.append_right more)

theorem Edit.growsInto {c : Collection} {produced : Produced}
    (h : Edit s p request c produced s') : s.GrowsInto (request.added (.ok produced)) s' := by
  cases h with
  | addFeature f _ _ _ => exact .of_features rfl (.refl (s.features ++ [f]))
  | removeFeature found =>
    refine .of_left rfl ?_
    rw [found.parts]
    exact .of_sublist ((List.sublist_cons_self _ _).append_left _)
  | @toggleFeature id before f after found =>
    refine .of_left rfl ?_
    rw [found.parts]
    exact .switched f (!f.enabled)
  | @setFeatureEnabled id before f after enabled found _ =>
    refine .of_left rfl ?_
    rw [found.parts]
    exact .switched f enabled.isTruthy
  | enqueueEmail e _ _ _ _ => exact .of_queue [e] (.refl (s.emailQueue ++ [e])) rfl
  | markEmailSent found =>
    refine .of_queue [] ?_ rfl
    rw [List.append_nil, found.parts]
    exact forall₂_replace ⟨rfl, fun _ => rfl⟩
  | _ => exact .of_same rfl rfl

theorem Effect.growsInto (h : Effect s p request result s' p' change?) :
    s.GrowsInto (request.added result) s' := by
  cases h with
  | failed failure _ =>
    rw [request.added_error failure]
    exact .of_same rfl rfl
  | edited _ edit =>
    obtain ⟨queue, features⟩ := edit.growsInto
    exact ⟨queue, features⟩
  | _ => exact .of_same rfl rfl

theorem Store.additions_of_length_le (shorter : t.features.length ≤ s.features.length) :
    s.additions t = [] :=
  List.drop_eq_nil_of_le shorter

/-- What comes to stand behind the others is what was asked for. -/
theorem Effect.additions_eq (h : Effect s p request result s' p' change?) :
    s.additions s' = request.added result := by
  cases h with
  | failed failure _ =>
    rw [request.added_error failure]
    exact Store.additions_of_length_le Nat.le.refl
  | edited _ edit =>
    cases edit with
    | addFeature f _ _ _ => exact List.drop_left
    | removeFeature found =>
      apply Store.additions_of_length_le
      simp [found.parts]
    | toggleFeature found =>
      apply Store.additions_of_length_le
      simp [found.parts]
    | setFeatureEnabled found _ =>
      apply Store.additions_of_length_le
      simp [found.parts]
    | _ => exact Store.additions_of_length_le Nat.le.refl
  | _ => exact Store.additions_of_length_le Nat.le.refl

/-- An added feature has an identifier that was not taken. -/
theorem Effect.untaken (h : Effect s p request result s' p' change?) (no_bytes : p.GivesNoBytes) :
    ∀ f ∈ request.added result, f.id.text ∉ s.takenFeatureIds := by
  intro f mem
  unfold Request.added at mem
  split at mem
  · rw [List.mem_singleton.mp mem]
    exact h.untaken_of_added no_bytes
  · cases mem

end

namespace Store

variable {s t : Store} {p q : Supplies} {added : List Feature}

/-- A store later in its process, with the features that have been added on the way, in the order in
which they have been added. Nothing has been installed from storage. -/
inductive Course (s : Store) (p : Supplies) : List Feature → Store → Supplies → Prop where
  | now : Course s p [] s p
  | look {added : List Feature} {t : Store} {q : Supplies} : Course s p added t q →
      Course s p added t (t.snapshot q).2
  | deed {added : List Feature} {t : Store} {q : Supplies} {platform : Value} {α : Type}
      {o : Outcome α} : Course s p added t q → Engine.Deed platform t q o →
      Course s p (added ++ t.additions o.store) o.store o.supplies

theorem Course.later (course : Course s p added t q) : Later s p t q := by
  induction course with
  | now => exact .now
  | look _ ih => exact ih.look
  | deed _ deed ih => exact ih.deed deed

theorem Later.course (later : Later s p t q) : ∃ added, Course s p added t q := by
  induction later with
  | now => exact ⟨[], .now⟩
  | look _ ih =>
    obtain ⟨added, course⟩ := ih
    exact ⟨added, course.look⟩
  | deed _ deed ih =>
    obtain ⟨added, course⟩ := ih
    exact ⟨_, course.deed deed⟩

theorem growsInto_of_deed {platform : Value} {α : Type} {o : Outcome α}
    (deed : Engine.Deed platform s p o) : s.GrowsInto (s.additions o.store) o.store := by
  cases deed.follows with
  | idle _ same _ =>
    rw [same, additions_of_length_le Nat.le.refl]
    exact .of_same rfl rfl
  | request _ _ effect =>
    rw [effect.additions_eq]
    exact effect.growsInto

theorem untaken_of_deed {platform : Value} {α : Type} {o : Outcome α}
    (deed : Engine.Deed platform s p o) (no_bytes : p.GivesNoBytes) :
    ∀ f ∈ s.additions o.store, f.id.text ∉ s.takenFeatureIds := by
  cases deed.follows with
  | idle _ same _ =>
    rw [same, additions_of_length_le Nat.le.refl]
    exact fun _ none_there => nomatch none_there
  | request _ passes effect =>
    rw [effect.additions_eq]
    exact effect.untaken (passes.givesNoBytes no_bytes)

theorem Course.growsInto (course : Course s p added t q) : s.GrowsInto added t := by
  induction course with
  | now => exact .of_same rfl rfl
  | look _ ih => exact ih
  | deed _ deed ih => exact ih.trans (growsInto_of_deed deed)

theorem Course.untaken (course : Course s p added t q) (no_bytes : p.GivesNoBytes) :
    ∀ f ∈ added, f.id.text ∉ s.takenFeatureIds := by
  induction course with
  | now => exact fun _ none_there => nomatch none_there
  | look _ ih => exact ih
  | deed course deed ih =>
    intro f mem
    obtain ⟨continues, none_given⟩ := course.later.continues no_bytes
    rcases List.mem_append.mp mem with earlier | new
    · exact ih f earlier
    · intro taken
      exact untaken_of_deed deed none_given f new (continues.taken taken)

/-- Whatever is done to a store but installing something, its mails stay where they are in the
queue, each as it was but for being marked as sent, and new ones come behind them. The features that
are left of it stand in their order before those that are left of the added ones. With a feed of
identifiers that are no bytes, no added feature can be taken for an old one. -/
theorem order_is_kept (course : Course s p added t q) :
    (∃ kept new, t.emailQueue = kept ++ new ∧ QueuedEmail.Stay s.emailQueue kept) ∧
      (∃ kept new, t.features = kept ++ new ∧ Feature.Remain kept s.features ∧
        Feature.Remain new added) ∧
      (p.GivesNoBytes → ∀ f ∈ added, f.id.text ∉ s.takenFeatureIds) := by
  have grown := course.growsInto
  refine ⟨?_, ?_, ?_⟩
  · obtain ⟨queued, stay⟩ := grown.queue
    exact stay.of_append
  · exact grown.features.of_append
  · exact course.untaken

def waiting : Store :=
  { Interpreter.entangled with
    emailQueue := [⟨⟨"mail", by decide⟩, "Sync", "", .ofUtc .first, false⟩] }

def queuing : Outcome Produced :=
  waiting.fulfil insistent (.enqueueEmail (.text "Sync") (.text "again"))

def adding : Outcome Reply :=
  Interpreter.interpret .null (.parse "add Sun | Tells the time")
    ⟨[], [], [], [], [], "", true, ⟨.first, none⟩⟩ queuing.store queuing.supplies

def removing : Outcome Produced :=
  adding.store.fulfil adding.supplies (.removeFeature (.text "gps"))

def sending : Outcome Produced :=
  removing.store.fulfil removing.supplies (.markEmailSent (.text "mail"))

theorem order_is_kept_while_waiting :
    (sending.store.emailQueue.map fun e => (e.id.text, e.sent)) = [("mail", true), ("gps", false)] ∧
      sending.store.featureIds = ["map", "sun"] ∧
      (∃ kept new, sending.store.emailQueue = kept ++ new ∧
        QueuedEmail.Stay waiting.emailQueue kept) ∧
      ∃ added kept new, sending.store.features = kept ++ new ∧
        Feature.Remain kept waiting.features ∧ Feature.Remain new added := by
  have queued : Course waiting insistent _ queuing.store queuing.supplies :=
    .deed .now (Engine.Deed.fulfil _ : Engine.Deed .null _ _ queuing)
  have added : Course waiting insistent _ adding.store adding.supplies :=
    queued.deed (Engine.Deed.interpret _ _ : Engine.Deed .null _ _ adding)
  have removed : Course waiting insistent _ removing.store removing.supplies :=
    added.deed (Engine.Deed.fulfil _ : Engine.Deed .null _ _ removing)
  have sent : Course waiting insistent _ sending.store sending.supplies :=
    removed.deed (Engine.Deed.fulfil _ : Engine.Deed .null _ _ sending)
  obtain ⟨mails, features, -⟩ := order_is_kept sent
  refine ⟨by decide +kernel, by decide +kernel, mails, _, features⟩

end Store

end ControlPanel
