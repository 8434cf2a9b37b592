import ControlPanel.Proofs.Edits
import ControlPanel.Proofs.Hosts
import Mathlib.Tactic.Choose

/-!
# Identifiers and times that can be had

A record gets the first free identifier of its feed, among as many as may be tried, and then the
time. Where identifiers are texts and the clock goes on, nothing but a lack of free identifiers
stands in the way of that.
-/
namespace ControlPanel

theorem WallTime.zero_inRange : 0 < 3652059 * microsPerDay := by decide

def WallTime.first : WallTime := ⟨0, zero_inRange⟩

namespace Supplies

variable {p p' : Supplies} {taken : List String}

/-- Supplies as hosts should give them: identifiers are texts, and the clock always shows a time. -/
structure Regular (p : Supplies) : Prop where
  texts : ∀ n, ∃ s, p.ids.item n = .text s
  shown : ∀ n, ∃ now, p.clock.item n = some now

def HasFreeId (p : Supplies) (taken : List String) : Prop :=
  ∃ n < idAttempts, ∃ s, p.ids.item (p.ids.taken + n) = .text s ∧ s ≠ "" ∧ s ∉ taken

theorem Passes.regular (h : p.Passes p') (regular : p.Regular) : p'.Regular where
  texts := h.ids ▸ regular.texts
  shown := h.clock ▸ regular.shown

theorem Regular.now (regular : p.Regular) : ∃ now p', p.now = (some now, p') := by
  obtain ⟨now, shown⟩ := regular.shown p.clock.taken
  exact ⟨now, _, by simp only [Supplies.now, Feed.next, shown]; rfl⟩

theorem Regular.givesNoBytes (regular : p.Regular) : p.GivesNoBytes := by
  intro n b bytes
  obtain ⟨s, text⟩ := regular.texts n
  rw [text] at bytes
  cases bytes

theorem HasFreeId.of_now {now? : Option ClockTime} (h : p.HasFreeId taken)
    (shown : p.now = (now?, p')) : p'.HasFreeId taken := by
  have same : p'.ids = p.ids := (congrArg (fun read => read.2.ids) shown).symm
  rwa [HasFreeId, same]

/-- A record gets the first free identifier and the time after it. -/
theorem stamp_first {k : Nat} {s : String} {now : ClockTime} (within : k < idAttempts)
    (handed : p.ids.item (p.ids.taken + k) = .text s) (nonempty : s ≠ "") (untaken : s ∉ taken)
    (earlier : ∀ j < k, isFreeId taken (p.ids.item (p.ids.taken + j)) = false)
    (shown : p.clock.item p.clock.taken = some now) :
    p.stamp taken = (.ok (⟨s, nonempty⟩, now.instant),
      ⟨{ p.ids with taken := p.ids.taken + k + 1 },
        { p.clock with taken := p.clock.taken + 1 }⟩) := by
  have stamped := Host.stamp_first (x := p) within ((Host.candidate_supplies p k).trans handed)
    nonempty untaken fun j before => by rw [Host.candidate_supplies, earlier j before]
  rw [Host.stamp_supplies, Host.skip_supplies, Host.now_used, shown] at stamped
  exact stamped

/-- Without a free identifier the clock is not read. -/
theorem stamp_stuck
    (stuck : ∀ j < idAttempts, isFreeId taken (p.ids.item (p.ids.taken + j)) = false) :
    p.stamp taken = (.error (.refused .idsExhausted),
      ⟨{ p.ids with taken := p.ids.taken + idAttempts }, p.clock⟩) := by
  have stamped := Host.stamp_stuck (x := p) fun j few => by
    rw [Host.candidate_supplies, stuck j few]
  rwa [Host.stamp_supplies, Host.skip_supplies] at stamped

theorem Regular.stamp_ok (regular : p.Regular) (available : p.HasFreeId taken) :
    ∃ id now p', p.stamp taken = (.ok (id, now), p') := by
  choose stream texts using fun n => regular.texts (p.ids.taken + n)
  obtain ⟨now, shown⟩ := regular.shown p.clock.taken
  obtain ⟨k, within, first⟩ : ∃ k < idAttempts, FirstFree taken stream k := by
    obtain ⟨n, few, s, handed, free⟩ := available
    obtain rfl := Value.text.inj ((texts n).symm.trans handed)
    exact FirstFree.exists_of_free ⟨n, few, free⟩
  refine ⟨_, _, _, stamp_first within (texts k) first.nonempty first.untaken (fun j before => ?_)
    shown⟩
  rw [texts j]
  exact not_isFreeId_text.mpr (first.earlier j before)

theorem Regular.stamp_exhausted (regular : p.Regular) (unavailable : ¬ p.HasFreeId taken) :
    ∃ p', p.stamp taken = (.error (.refused .idsExhausted), p') := by
  refine ⟨_, stamp_stuck fun j few => ?_⟩
  obtain ⟨s, text⟩ := regular.texts (p.ids.taken + j)
  by_contra free
  rw [text, Bool.not_eq_false] at free
  exact unavailable ⟨j, few, s, text, isFreeId_text.mp free⟩

def numbered : Supplies :=
  ⟨.ofFunction fun n => .text (toString n), .ofFunction fun _ => some ⟨.first, none⟩⟩

theorem regular_numbered : numbered.Regular where
  texts n := ⟨toString n, rfl⟩
  shown _ := ⟨_, rfl⟩

end Supplies

end ControlPanel
