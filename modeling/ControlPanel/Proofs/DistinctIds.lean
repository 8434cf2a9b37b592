import ControlPanel.Proofs.StoredIds

/-!
# Identifiers in a store

No request makes a store hold an identifier twice, whatever its feed of identifiers hands out, and
neither does installing texts that hold none twice.
-/
namespace ControlPanel

def Store.IdsDistinct (s : Store) : Prop :=
  ∀ c : Collection, (c.ids (s.content c)).Nodup

section Records

variable {α : Type} {idOf : α → Id} {items before after : List α} {a b : α}

theorem nodup_ids_concat (untaken : (idOf a).text ∉ items.map fun b => (idOf b).text)
    (distinct : (items.map fun b => (idOf b).text).Nodup) :
    ((items ++ [a]).map fun b => (idOf b).text).Nodup := by
  rw [List.map_append, List.map_singleton, List.nodup_append]
  refine ⟨distinct, List.pairwise_singleton _ _, fun x hx y hy => ?_⟩
  rw [List.mem_singleton.mp hy]
  exact ne_of_mem_of_not_mem hx untaken

theorem nodup_ids_take_cons {cap : Nat} (untaken : (idOf a).text ∉ items.map fun b => (idOf b).text)
    (distinct : (items.map fun b => (idOf b).text).Nodup) :
    (((a :: items).take cap).map fun b => (idOf b).text).Nodup := by
  have whole : ((a :: items).map fun b => (idOf b).text).Nodup :=
    List.nodup_cons.mpr ⟨untaken, distinct⟩
  exact ((List.take_sublist cap _).map _).nodup whole

theorem FoundAmong.nodup_ids_remove {id : String} (found : FoundAmong idOf id items before a after)
    (distinct : (items.map fun b => (idOf b).text).Nodup) :
    ((before ++ after).map fun b => (idOf b).text).Nodup := by
  rw [found.parts] at distinct
  exact (((List.sublist_cons_self a after).append_left before).map _).nodup distinct

theorem FoundAmong.nodup_ids_replace {id : String} (found : FoundAmong idOf id items before a after)
    (same : idOf b = idOf a) (distinct : (items.map fun b => (idOf b).text).Nodup) :
    ((before ++ b :: after).map fun b => (idOf b).text).Nodup := by
  rw [found.parts, List.map_append, List.map_cons] at distinct
  rwa [List.map_append, List.map_cons, same]

end Records

variable {s s' : Store} {p p' : Supplies}

/-- An edit gives its record an identifier that is free, or leaves the identifiers as they are but
for some that go. -/
theorem Edit.nodup_ids {r : Request} {c : Collection} {produced : Produced}
    (h : Edit s p r c produced s') (no_bytes : p.GivesNoBytes)
    (distinct : (c.ids (s.content c)).Nodup) : (c.ids (s'.content c)).Nodup := by
  cases h with
  | addFeature f stamps _ _ =>
    have free := stamps.untaken no_bytes
    exact nodup_ids_concat (fun taken => free (List.mem_append_left _ taken)) distinct
  | removeFeature found => exact found.nodup_ids_remove distinct
  | toggleFeature found => exact found.nodup_ids_replace rfl distinct
  | setFeatureEnabled found _ => exact found.nodup_ids_replace rfl distinct
  | appendGps e stamps _ => exact nodup_ids_take_cons (stamps.untaken no_bytes) distinct
  | appendPhoto e stamps _ => exact nodup_ids_take_cons (stamps.untaken no_bytes) distinct
  | appendCommand e stamps _ _ _ => exact nodup_ids_take_cons (stamps.untaken no_bytes) distinct
  | clearCommands => exact List.nodup_nil
  | clearGps => exact List.nodup_nil
  | enqueueEmail e stamps _ _ _ => exact nodup_ids_concat (stamps.untaken no_bytes) distinct
  | markEmailSent found => exact found.nodup_ids_replace rfl distinct
  | setEmailAddress _ => exact List.nodup_nil

theorem Effect.idsDistinct {r : Request} {result : Except Failure Produced}
    {change? : Option Change} (h : Effect s p r result s' p' change?) (no_bytes : p.GivesNoBytes)
    (distinct : s.IdsDistinct) : s'.IdsDistinct ∧ p'.GivesNoBytes ∧
      ∀ change ∈ change?, (change.collection.ids change.content).Nodup := by
  cases h with
  | failed failure passes => exact ⟨distinct, passes.givesNoBytes no_bytes, nofun⟩
  | absent => exact ⟨distinct, no_bytes, nofun⟩
  | alike => exact ⟨distinct, no_bytes, nofun⟩
  | online value => exact ⟨fun c => by cases c <;> exact distinct _, no_bytes, nofun⟩
  | @edited _ c _ s₁ _ passes edit =>
    have edited : ({ s₁ with changes := s₁.changes + 1 } : Store).IdsDistinct := by
      intro other
      rw [Store.content_changes]
      by_cases own : other = c
      · subst own
        exact edit.nodup_ids no_bytes (distinct other)
      · rw [edit.altersOnly.2 other own]
        exact distinct other
    refine ⟨edited, passes.givesNoBytes no_bytes, fun change made => ?_⟩
    cases made
    exact edited c

/-- What leaves a store behind as a request does keeps its identifiers distinct, and those of the
change that it announces. -/
theorem Outcome.Follows.idsDistinct {α : Type} {fine : Request → Prop} {o : Outcome α}
    (h : o.Follows fine s p) (no_bytes : p.GivesNoBytes) (distinct : s.IdsDistinct) :
    o.store.IdsDistinct ∧ o.supplies.GivesNoBytes ∧
      ∀ change ∈ o.change?, (change.collection.ids change.content).Nodup := by
  cases h with
  | idle passes same none_made =>
    rw [same, none_made]
    exact ⟨distinct, passes.givesNoBytes no_bytes, nofun⟩
  | request _ passes effect => exact effect.idsDistinct (passes.givesNoBytes no_bytes) distinct

theorem Collection.ids_clip (c : Collection) (content : c.Content) :
    (c.ids (c.clip content)).Sublist (c.ids content) := by
  cases c with
  | gpsLogs => exact (List.take_sublist _ content).map _
  | photoLogs => exact (List.take_sublist _ content).map _
  | commandLogs => exact (List.take_sublist _ content).map _
  | _ => exact List.Sublist.refl _

namespace Store

theorem idsDistinct_restore {saved : SavedState} (distinct : s.IdsDistinct)
    (found : ∀ c, ∀ content ∈ saved.content? c, (c.ids content).Nodup) :
    (s.restore saved).IdsDistinct := by
  intro c
  rw [content_restore]
  cases present : saved.content? c with
  | none => exact distinct c
  | some content => exact (c.ids_clip content).nodup (found c content present)

theorem passes_create {seeded : Bool} {s? : Option Store} (h : create seeded p = (s?, p')) :
    p.Passes p' := by
  unfold create at h
  split at h
  · cases h
    exact ⟨rfl, rfl⟩
  · cases h
    exact .refl p

theorem idsDistinct_create {seeded : Bool} (h : create seeded p = (some s, p')) :
    s.IdsDistinct := by
  have seeds : (seedRows.map fun row => row.1.text).Nodup := by decide
  have none_held (features : List Feature) (distinct : (features.map fun f => f.id.text).Nodup) :
      ({ empty with features := features } : Store).IdsDistinct := by
    intro c
    cases c with
    | features => exact distinct
    | _ => exact List.nodup_nil
  unfold create at h
  split at h
  · obtain ⟨now, -, rfl⟩ := Option.map_eq_some_iff.mp (congrArg Prod.fst h)
    refine none_held _ ?_
    rw [seedFeatures, List.map_map]
    exact seeds
  · cases h
    exact none_held [] List.nodup_nil

end Store

end ControlPanel
