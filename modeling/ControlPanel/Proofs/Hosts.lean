import ControlPanel.Store.Basic
import Mathlib.Data.Nat.Find
import Mathlib.Logic.Function.Iterate

/-!
# Hosts

A record takes its identifier and its time from a host, and in that order: identifiers until one is
free, at most as many as may be tried, and then one look at the clock. Supplies are the hosts whose
feeds know nothing of each other. What another host gives may depend on all that was demanded of it,
so what is left of it tells the order of the demands.
-/
namespace ControlPanel

/-- The first identifier of a stream that is neither empty nor taken stands at `k`. -/
structure FirstFree (taken : List String) (stream : Nat → String) (k : Nat) : Prop where
  nonempty : stream k ≠ ""
  untaken : stream k ∉ taken
  earlier : ∀ j < k, stream j = "" ∨ stream j ∈ taken

namespace FirstFree

variable {taken : List String} {stream : Nat → String} {k l : Nat}

def id (first : FirstFree taken stream k) : Id := ⟨stream k, first.nonempty⟩

theorem exists_of_free {n : Nat} (free : ∃ j < n, stream j ≠ "" ∧ stream j ∉ taken) :
    ∃ k < n, FirstFree taken stream k := by
  have some_free : ∃ j, stream j ≠ "" ∧ stream j ∉ taken := by
    obtain ⟨j, -, free⟩ := free
    exact ⟨j, free⟩
  obtain ⟨nonempty, untaken⟩ := Nat.find_spec some_free
  refine ⟨Nat.find some_free, ?_, nonempty, untaken, fun j before => ?_⟩
  · obtain ⟨j, few, free⟩ := free
    exact lt_of_le_of_lt (Nat.find_min' some_free free) few
  · have taken := Nat.find_min some_free before
    rwa [not_and_or, not_not, not_not] at taken

/-- Two first ones are the same. -/
theorem unique (first : FirstFree taken stream k) (other : FirstFree taken stream l) : k = l := by
  rcases Nat.lt_trichotomy k l with before | same | behind
  · exact absurd (other.earlier k before) (not_or.mpr ⟨first.nonempty, first.untaken⟩)
  · exact same
  · exact absurd (first.earlier l behind) (not_or.mpr ⟨other.nonempty, other.untaken⟩)

end FirstFree

namespace Supplies

variable {taken : List String} {s : String}

theorem isFreeId_text : isFreeId taken (.text s) ↔ s ≠ "" ∧ s ∉ taken := by
  simp [isFreeId, Value.isTruthy]

theorem not_isFreeId_text : isFreeId taken (.text s) = false ↔ s = "" ∨ s ∈ taken := by
  rw [← Bool.not_eq_true, isFreeId_text, not_and_or, not_not, not_not]

def used (p : Supplies) (ids times : Nat) : Supplies :=
  ⟨{ p.ids with taken := p.ids.taken + ids }, { p.clock with taken := p.clock.taken + times }⟩

end Supplies

/-- Whoever hands out identifiers and shows the time. What is given may depend on all that was
demanded before. -/
class Host (σ : Type) where
  nextId : σ → Value × σ
  now : σ → Option ClockTime × σ

instance : Host Supplies where
  nextId p := (p.ids.next.1, { p with ids := p.ids.next.2 })
  now := Supplies.now

namespace Host

variable {σ : Type} [Host σ]

def allocate (taken : List String) : Nat → σ → Option Value × σ
  | 0, x => (none, x)
  | attempts + 1, x =>
    let (candidate, x) := nextId x
    if isFreeId taken candidate then (some candidate, x) else allocate taken attempts x

def stamp (taken : List String) (x : σ) : Except Failure (Id × Instant) × σ :=
  match allocate taken idAttempts x with
  | (none, x) => (.error (.refused .idsExhausted), x)
  | (some candidate, x) =>
    if candidate.isContainer then (.error (.notComparable candidate.kindName), x)
    else
      let field := (Field.id candidate).within (.key "id")
      match now x, field.value? with
      | (none, x), _ => (.error .calendarEnded, x)
      | (some now, x), some id => (.ok (id, now.instant), x)
      | (some _, x), none => (.error (.wrongFields field.errors), x)

def skip (n : Nat) (x : σ) : σ := (fun y => (nextId y).2)^[n] x

def candidate (x : σ) (n : Nat) : Value := (nextId (skip n x)).1

variable {taken : List String} {attempts k : Nat} {x : σ}

theorem allocate_first (within : k < attempts) (free : isFreeId taken (candidate x k))
    (earlier : ∀ j < k, isFreeId taken (candidate x j) = false) :
    allocate taken attempts x = (some (candidate x k), skip (k + 1) x) := by
  induction attempts generalizing x k with
  | zero => exact absurd within (Nat.not_lt_zero k)
  | succ attempts ih =>
    cases k with
    | zero =>
      have free : isFreeId taken (nextId x).1 := free
      simp [allocate, free, candidate, skip]
    | succ k =>
      have skipped : isFreeId taken (nextId x).1 = false := earlier 0 (Nat.succ_pos k)
      have rest := @ih k (nextId x).2 (Nat.lt_of_succ_lt_succ within) free
        fun j hj => earlier (j + 1) (Nat.succ_lt_succ hj)
      simp only [allocate, skipped, Bool.false_eq_true, if_false]
      exact rest

theorem allocate_none (stuck : ∀ j < attempts, isFreeId taken (candidate x j) = false) :
    allocate taken attempts x = (none, skip attempts x) := by
  induction attempts generalizing x with
  | zero => rfl
  | succ attempts ih =>
    have skipped : isFreeId taken (nextId x).1 = false := stuck 0 (Nat.succ_pos attempts)
    have rest := @ih (nextId x).2 fun j hj => stuck (j + 1) (Nat.succ_lt_succ hj)
    simp only [allocate, skipped, Bool.false_eq_true, if_false]
    exact rest

theorem stamp_first {s : String} (within : k < idAttempts) (handed : candidate x k = .text s)
    (nonempty : s ≠ "") (untaken : s ∉ taken)
    (earlier : ∀ j < k, isFreeId taken (candidate x j) = false) :
    stamp taken x = match now (skip (k + 1) x) with
      | (some now, y) => (.ok (⟨s, nonempty⟩, now.instant), y)
      | (none, y) => (.error .calendarEnded, y) := by
  have free : isFreeId taken (candidate x k) := by
    rw [handed]
    exact Supplies.isFreeId_text.mpr ⟨nonempty, untaken⟩
  have allocated := allocate_first within free earlier
  rw [handed] at allocated
  have field : (Field.id (.text s)).within (.key "id") = .ok ⟨s, nonempty⟩ := by
    simp [Field.id, Field.spelled, Id.of?, nonempty]
  rcases shown : now (skip (k + 1) x) with ⟨_ | now, y⟩ <;>
    simp [stamp, allocated, Value.isContainer, shown, field, Checked.value?]

theorem stamp_stuck (stuck : ∀ j < idAttempts, isFreeId taken (candidate x j) = false) :
    stamp taken x = (.error (.refused .idsExhausted), skip idAttempts x) := by
  simp only [stamp, allocate_none stuck]

theorem allocate_supplies (taken : List String) (attempts : Nat) (p : Supplies) :
    allocate taken attempts p =
      ((p.ids.allocate taken attempts).1, { p with ids := (p.ids.allocate taken attempts).2 }) := by
  induction attempts generalizing p with
  | zero => rfl
  | succ attempts ih =>
    simp only [allocate, Feed.allocate, nextId]
    split
    · rfl
    · exact ih _

theorem stamp_supplies (taken : List String) (p : Supplies) : stamp taken p = p.stamp taken := by
  simp only [stamp, Supplies.stamp, allocate_supplies]
  rcases p.ids.allocate taken idAttempts with ⟨_ | candidate, ids⟩
  · rfl
  · have same : now (⟨ids, p.clock⟩ : Supplies) = Supplies.now ⟨ids, p.clock⟩ := rfl
    simp only [same]
    rcases Supplies.now ⟨ids, p.clock⟩ with ⟨_ | now, q⟩ <;>
      cases ((Field.id candidate).within (.key "id")).value? <;> rfl

theorem skip_supplies (p : Supplies) (n : Nat) : skip n p = p.used n 0 := by
  induction n with
  | zero => rfl
  | succ n ih =>
    rw [skip, Function.iterate_succ_apply']
    exact congrArg (fun q : Supplies => (nextId q).2) ih

theorem candidate_supplies (p : Supplies) (n : Nat) :
    candidate p n = p.ids.item (p.ids.taken + n) := by
  rw [candidate, skip_supplies]
  rfl

theorem now_used (p : Supplies) (n : Nat) :
    now (p.used n 0) = (p.clock.item p.clock.taken, p.used n 1) := rfl

end Host

end ControlPanel
