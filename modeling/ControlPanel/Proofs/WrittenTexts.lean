import ControlPanel.Proofs.Attempts
import ControlPanel.Proofs.HonestMedia

/-!
# Texts behind a writer

If only fine texts are submitted to a writer, those under way are fine, and so are those on its
medium, whatever the worker does and however the medium fails.
-/
namespace ControlPanel

namespace WriteQueue

/-- What is under way after a step was under way before it, or is submitted by it. -/
theorem mem_underway_step {q q' : WriteQueue} {e : Event} {begun? : Option Write}
    (inv : Invariant q) (step : Step q e q' begun?) {write : Write} (h : write ∈ q'.underway) :
    write ∈ q.underway ∨ write ∈ submittedBy e := by
  have own : write ∈ ofKey write.key ((endedBy q e).map Prod.fst ++ q'.underway) :=
    List.mem_filter.mpr ⟨List.mem_append_right _ h, by simp⟩
  have before := (underway_step inv step write.key).sublist.subset own
  exact List.mem_append.mp (List.mem_filter.mp before).1

theorem mem_underway_of_jobs {q : WriteQueue} {x : Executor} {write : Write} {rest : List Job}
    (h : q.jobsOf x = ⟨write, true⟩ :: rest) : write ∈ q.underway := by
  cases x <;> simp [underway, executing, writesOf, h]

theorem mem_underway_of_inline {q : WriteQueue} {write : Write} (h : q.inline? = some write) :
    write ∈ q.underway := by
  simp [underway, executing, h]

theorem mem_underway_of_writing {q : WriteQueue} {write : Write} (h : q.worker = .writing write) :
    write ∈ q.underway := by
  simp [underway, executing, direct, h]

end WriteQueue

namespace Writer

open WriteQueue

theorem happen_medium {μ : Type} (w : Writer μ) (e : Event) : (w.happen e).medium = w.medium := by
  unfold happen
  split <;> rfl

variable {μ : Type} [Medium μ] [HonestMedium μ] {Fine : String → Prop} {w w' : Writer μ}

structure Carries (Fine : String → Prop) (w : Writer μ) : Prop where
  invariant : Invariant w.queue
  underway : ∀ write ∈ w.queue.underway, Fine write.payload
  held : ∀ text, HonestMedium.Holds w.medium text → Fine text

namespace Carries

theorem happen {e : Event} (h : w.Carries Fine)
    (new : ∀ write ∈ submittedBy e, Fine write.payload) : (w.happen e).Carries Fine := by
  have held : ∀ text, HonestMedium.Holds (w.happen e).medium text → Fine text := by
    rw [happen_medium]
    exact h.held
  rcases w.happen_queue e with same | ⟨effect, moved⟩
  · exact ⟨same ▸ h.invariant, same ▸ h.underway, held⟩
  · have step := step_of_next moved
    refine ⟨step_preserves_invariant h.invariant step, fun write there => ?_, held⟩
    exact (mem_underway_step h.invariant step there).elim (h.underway write) (new write)

/-- Only the queue and the medium count. -/
theorem of_same (h : w.Carries Fine) (queue : w'.queue = w.queue) (medium : w'.medium = w.medium) :
    w'.Carries Fine :=
  ⟨queue ▸ h.invariant, queue ▸ h.underway, medium ▸ h.held⟩

/-- A medium that holds no more than fine texts takes the place of another. -/
theorem medium (h : w.Carries Fine) {medium : μ}
    (held : ∀ text, HonestMedium.Holds medium text → Fine text) :
    ({ w with medium := medium } : Writer μ).Carries Fine :=
  ⟨h.invariant, h.underway, held⟩

variable (visible : ∀ text, Fine text → Json.AllVisible text.toList)

include visible

theorem held_write (h : w.Carries Fine) {write : Write} (fine : Fine write.payload) :
    ∀ text, HonestMedium.Holds (Medium.write w.medium write.key write.payload).2 text →
      Fine text := by
  intro text held
  rcases HonestMedium.holds_of_write (visible _ fine) held with old | rfl
  · exact h.held text old
  · exact fine

theorem land {write : Write} {ending : Option MediumFault → Event} (h : w.Carries Fine)
    (fine : Fine write.payload) (none_new : ∀ fault?, submittedBy (ending fault?) = []) :
    (w.land write ending).Carries Fine := by
  have landed : (({ w with medium := (Medium.write w.medium write.key write.payload).2 } :
      Writer μ).noteAll (Medium.notes w.medium write.key write.payload)).Carries Fine :=
    (h.medium (h.held_write visible fine)).of_same rfl rfl
  refine landed.happen fun other new => ?_
  rw [none_new] at new
  cases new

theorem works (h : w.Carries Fine) (works : Works w w') : w'.Carries Fine := by
  cases works with
  | happen e internal =>
    refine h.happen fun write new => ?_
    rw [submittedBy_internal internal] at new
    cases new
  | finish x write rest jobs =>
    exact h.land visible (h.underway write (mem_underway_of_jobs jobs)) fun _ => rfl
  | endDirect write busy =>
    exact h.land visible (h.underway write (mem_underway_of_writing busy)) fun _ => rfl

theorem run (h : w.Carries Fine) (c : Conditions) (fuel : Nat) : (w.run c fuel).Carries Fine := by
  induction fuel generalizing w with
  | zero => exact h
  | succ fuel ih =>
    unfold Writer.run
    split
    · rename_i w' moved
      exact ih (h.works visible (works_of_advance moved))
    · exact h

theorem stop (h : w.Carries Fine) (limit : Value) (c : Conditions) :
    (w.stop limit c).Carries Fine := by
  unfold Writer.stop
  split
  · have settled := (h.happen (e := .stop) nofun).run visible c (w.happen .stop).stepBound
    exact settled.of_same rfl rfl
  · exact h

theorem submit (h : w.Carries Fine) {write : Write} (fine : Fine write.payload) :
    (w.submit write).Carries Fine := by
  have submitted : (w.happen (.submit write)).Carries Fine :=
    h.happen fun other new => List.mem_singleton.mp new ▸ fine
  unfold Writer.submit
  dsimp only
  split
  · rename_i other inline
    exact submitted.land visible (submitted.underway other (mem_underway_of_inline inline))
      fun _ => rfl
  · exact submitted

end Carries

end Writer

end ControlPanel
