import ControlPanel.Proofs.Plans

/-!
# Calls that fail

Whatever a host or a sensor hands over, a call that fails has taken identifiers and times at most:
the store is as it was, and nobody has been told of a change.
-/
namespace ControlPanel

inductive Call where
  | request (r : Request)
  | photo (uri : Value)
  | location (lat lng accuracy : Value)

def Call.outcome (s : Store) (p : Supplies) : Call → Outcome Produced
  | .request r => s.fulfil p r
  | .photo uri => (Capture.photo s p uri).map .photo
  | .location lat lng accuracy => (Capture.location s p lat lng accuracy).map .gps

namespace Outcome

variable {α β : Type} {s : Store} {p : Supplies} {o : Outcome α}

/-- A failure leaves nothing behind but supplies that have been taken from. -/
def LeavesOnFailure (o : Outcome α) (s : Store) (p : Supplies) : Prop :=
  o.result.isOk = false → o.store = s ∧ o.change? = none ∧ p.Passes o.supplies

theorem leavesOnFailure_fail {p' : Supplies} (failure : Failure) (passes : p.Passes p') :
    (fail s p' failure : Outcome α).LeavesOnFailure s p :=
  fun _ => ⟨rfl, rfl, passes⟩

theorem isOk_map (f : α → β) (o : Outcome α) : (o.map f).result.isOk = o.result.isOk := by
  unfold map
  cases o.result <;> rfl

theorem LeavesOnFailure.map (f : α → β) (h : o.LeavesOnFailure s p) :
    (o.map f).LeavesOnFailure s p := by
  intro failed
  rw [isOk_map] at failed
  exact h failed

theorem LeavesOnFailure.of_map {f : α → β} (h : (o.map f).LeavesOnFailure s p) :
    o.LeavesOnFailure s p := by
  intro failed
  rw [← isOk_map f] at failed
  exact h failed

theorem IsEffectOf.leavesOnFailure {o : Outcome Produced} {r : Request}
    (effect : o.IsEffectOf s p r) : o.LeavesOnFailure s p := by
  intro failed
  cases result : o.result with
  | ok produced =>
    rw [result] at failed
    cases failed
  | error failure =>
    rw [IsEffectOf, result] at effect
    obtain ⟨store, change⟩ := effect.unchanged
    exact ⟨store, change, effect.passes⟩

/-- A line is added about a record only, so not to a failure. -/
theorem LeavesOnFailure.noting (note : α → Note) (h : o.LeavesOnFailure s p) :
    (Capture.noting o note).LeavesOnFailure s p := by
  unfold Capture.noting
  split
  · rename_i a result
    intro failed
    rw [result] at failed
    cases failed
  · exact h

end Outcome

namespace Capture

variable {s : Store} {p : Supplies}

theorem photo_leavesOnFailure (uri : Value) : (photo s p uri).LeavesOnFailure s p := by
  have requested : (s.requestPhoto p uri).LeavesOnFailure s p :=
    (Store.isEffectOf_requestPhoto uri).leavesOnFailure.of_map
  exact requested.noting photoNote

theorem location_leavesOnFailure (lat lng accuracy : Value) :
    (location s p lat lng accuracy).LeavesOnFailure s p := by
  unfold location
  split
  · exact Outcome.leavesOnFailure_fail _ (.refl p)
  · rename_i n rounded
    have appended : (s.appendGps p lat lng (.int n)).LeavesOnFailure s p :=
      (Store.isEffectOf_appendGps lat lng (.int n)).leavesOnFailure.of_map
    exact appended.noting locationNote

end Capture

theorem Call.leavesOnFailure (c : Call) (s : Store) (p : Supplies) :
    (c.outcome s p).LeavesOnFailure s p := by
  cases c with
  | request r => exact (Store.isEffectOf_fulfil r).leavesOnFailure
  | photo uri => exact (Capture.photo_leavesOnFailure uri).map Produced.photo
  | location lat lng accuracy =>
    exact (Capture.location_leavesOnFailure lat lng accuracy).map Produced.gps

namespace Watched

def call (w : Watched) (handler? : Option Handler) (c : Call) : Except Failure Produced × Watched :=
  w.apply handler? (c.outcome w.store w.supplies)

/-- A call that fails, for whatever reason, leaves the store as it was, and no change is told. -/
theorem failed_call_leaves_store (w : Watched) (handler? : Option Handler) (c : Call)
    (failed : (w.call handler? c).1.isOk = false) :
    (w.call handler? c).2.store = w.store ∧ (w.call handler? c).2.told = w.told ∧
      w.supplies.Passes (w.call handler? c).2.supplies := by
  obtain ⟨store, change, passes⟩ := c.leavesOnFailure w.store w.supplies failed
  refine ⟨store, ?_, passes⟩
  simp only [call, apply, change]

def crowded : Watched where
  store := { Store.empty with photoLogs := [⟨⟨"x", by decide⟩, "camera:1", .ofUtc .first⟩] }
  supplies := ⟨.ofFunction fun _ => .text "x", .ofFunction fun _ => some ⟨.first, none⟩⟩
  told := []
  journal := []

theorem crowded_takes_no_photo :
    (crowded.call (some fun _ => true) (.photo (.text "camera:2"))).1.isOk = false ∧
      (crowded.call (some fun _ => true) (.photo (.text "camera:2"))).2.store = crowded.store ∧
      (crowded.call (some fun _ => true) (.photo (.text "camera:2"))).2.told = [] := by
  have failed : (crowded.call (some fun _ => true) (.photo (.text "camera:2"))).1.isOk = false := by
    decide
  obtain ⟨store, told, -⟩ := failed_call_leaves_store crowded (some fun _ => true) _ failed
  exact ⟨failed, store, told⟩

end Watched

end ControlPanel
