import ControlPanel.Proofs.AlikeStores

/-!
# Captures and commands on stores that differ in secrets

A plan looks at no secret, and the reply to the result of its operation tells none.
-/
namespace ControlPanel

variable {s s' : Store} {p : Supplies}

namespace Store.Alike

theorem noting_photo {o o' : Outcome PhotoEntry} (h : o.Alike PhotoEntry.veil o') :
    (Capture.noting o Capture.photoNote).Alike PhotoEntry.veil
      (Capture.noting o' Capture.photoNote) := by
  refine h.noting fun e e' same => ?_
  have ids : e.veil.id = e'.veil.id := congrArg PhotoEntry.id same
  exact congrArg (fun id : Id => Note.debug .capture ("Photo recorded id=" ++ id.text)) ids

theorem photo (h : s.Alike s') (p : Supplies) (uri : Value) :
    (Capture.photo s p uri).Alike PhotoEntry.veil (Capture.photo s' p uri) :=
  noting_photo (h.requestPhoto p uri)

theorem photo_text (h : s.Alike s') (p : Supplies) {uri uri' : String}
    (handle : Text.isBlankText uri = false) (handle' : Text.isBlankText uri' = false)
    (alike : Redaction.EquallyLong uri uri') :
    (Capture.photo s p (.text uri)).Alike PhotoEntry.veil (Capture.photo s' p (.text uri')) :=
  noting_photo (h.requestPhoto_text p handle handle' alike)

theorem location (h : s.Alike s') (p : Supplies) (lat lng accuracy : Value) :
    (Capture.location s p lat lng accuracy).Alike id (Capture.location s' p lat lng accuracy) := by
  unfold Capture.location
  split
  · exact .fail _ h
  · exact (h.appendGps p ..).noting fun _ _ => congrArg Capture.locationNote

theorem takeSample (h : s.Alike s') (p : Supplies) (sampling : Capture.Sampling) :
    (Capture.takeSample s p sampling).Alike id (Capture.takeSample s' p sampling) := by
  cases sampling with
  | failed => exact ⟨rfl, h, rfl, .none, rfl⟩
  | nothing => exact .unchanged rfl h
  | sample sample =>
    have alike := h.location p sample.lat sample.lng sample.accuracy
    unfold Capture.takeSample
    dsimp only
    rcases alike.results with ⟨failure, failed, failed'⟩ | ⟨e, e', done, done', same⟩
    · rw [failed, failed']
      cases failure with
      | refused reason =>
        exact ⟨rfl, alike.store, alike.supplies, alike.change, congrArg (· ++ _) alike.notes⟩
      | _ => exact alike.map_same some
    · rw [done, done']
      exact alike.map_same some

end Store.Alike

/-- The reply tells nothing that the result of the operation keeps secret. -/
inductive Plan.Discreet : Plan → Prop where
  | reply (r : Reply) : Discreet (.reply r)
  | operate {op : Operation} {respond : Produced → Reply} :
      (∀ a b, a.veil = b.veil → (respond a).veil = (respond b).veil) →
      Discreet (.operate op respond)
  | operateAt {op : ClockTime → Operation} {respond : Produced → Reply} :
      (∀ a b, a.veil = b.veil → (respond a).veil = (respond b).veil) →
      Discreet (.operateAt op respond)

namespace Interpreter

variable {platform : Value} {line : CommandLine} {verb : Verb} {snapshot snapshot' : Snapshot}

theorem plan_alike (h : snapshot.Alike snapshot') :
    plan platform line snapshot' verb = plan platform line snapshot verb := by
  cases h
  cases verb <;> rfl

theorem respondFeature_discreet (message : Feature → String) (a b : Produced)
    (same : a.veil = b.veil) :
    (respondFeature message a).veil = (respondFeature message b).veil := by
  cases a <;> cases b <;> simp_all [Produced.veil, respondFeature]

theorem discreet_planEnable {on : Bool} {found : Plan}
    (planned : planEnable line snapshot on = .ok found) : found.Discreet := by
  unfold planEnable at planned
  dsimp only at planned
  split at planned
  · cases planned
  · split at planned
    · cases planned
    · split at planned
      · cases planned
        exact .reply _
      · cases planned
        exact .operate (respondFeature_discreet _)

theorem discreet_plan {found : Plan} (planned : plan platform line snapshot verb = .ok found) :
    found.Discreet := by
  cases verb with
  | enable => exact discreet_planEnable planned
  | disable => exact discreet_planEnable planned
  | add =>
    simp only [plan, planAdd] at planned
    split at planned
    · split at planned
      · cases planned
      · cases planned
        exact .operate (respondFeature_discreet _)
    · cases planned
  | remove =>
    simp only [plan, planRemove] at planned
    split at planned
    · cases planned
    · split at planned
      · cases planned
      · cases planned
        exact .operate fun _ _ _ => rfl
  | syncEmail =>
    simp only [plan, planSync] at planned
    split at planned
    · cases planned
    · cases planned
      refine .operateAt fun a b same => ?_
      cases a <;> cases b <;> simp_all [Produced.veil, Reply.veil, Payload.veil, Reply.accept]
  | _ =>
    cases planned
    first
      | exact .reply _
      | exact .operate fun _ _ _ => rfl

theorem alike_operate (h : s.Alike s') (p : Supplies) (op : Operation)
    {respond : Produced → Reply}
    (discreet : ∀ a b, a.veil = b.veil → (respond a).veil = (respond b).veil) :
    (operate line verb s p op respond).Alike Reply.veil (operate line verb s' p op respond) := by
  have alike : (s.perform p op).Alike Produced.veil (s'.perform p op) := by
    rw [← Store.fulfil_request, ← Store.fulfil_request]
    exact h.fulfil (.same _) p
  unfold operate
  dsimp only
  rcases alike.results with ⟨failure, failed, failed'⟩ | ⟨a, b, done, done', same⟩
  · rw [failed, failed', alike.notes]
    cases failure <;> exact ⟨rfl, alike.store, alike.supplies, alike.change, rfl⟩
  · rw [done, done', alike.notes]
    exact ⟨congrArg Except.ok (discreet a b same), alike.store, alike.supplies, alike.change, rfl⟩

theorem alike_carryOut (h : s.Alike s') (p : Supplies) {found : Plan} (discreet : found.Discreet) :
    (carryOut line verb s p found).Alike Reply.veil (carryOut line verb s' p found) := by
  cases discreet with
  | reply r => exact ⟨rfl, h, rfl, .none, rfl⟩
  | operate discreet => exact alike_operate h p _ discreet
  | operateAt discreet =>
    unfold carryOut
    dsimp only
    split
    · exact .fail _ h
    · exact alike_operate h _ _ discreet

/-- A command leads to outcomes that differ in secrets alone. -/
theorem alike_interpret (h : s.Alike s') (taken : snapshot.Alike snapshot') (platform : Value)
    (line : CommandLine) (p : Supplies) :
    (interpret platform line snapshot s p).Alike Reply.veil
      (interpret platform line snapshot' s' p) := by
  have refused (reason : Refusal) :
      (refusal line s p reason).Alike Reply.veil (refusal line s' p reason) :=
    ⟨rfl, h, rfl, .none, rfl⟩
  unfold interpret
  split
  · exact .unchanged rfl h
  · split
    · exact refused _
    · rw [plan_alike taken]
      split
      · exact refused _
      · rename_i planned
        exact alike_carryOut h p (discreet_plan planned)

end Interpreter

end ControlPanel
