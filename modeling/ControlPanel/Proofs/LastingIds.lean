import ControlPanel.Proofs.Recording

/-!
# Identifiers that last

Identifiers are taken from their feed one after the other and never put back. If those that are left
differ from each other and from those of the command log, there is one for the entry of every further
command, and every command is answered.
-/
namespace ControlPanel

theorem Feed.taken_le_allocate (taken : List String) (attempts : Nat) (ids : Feed Value) :
    ids.taken ≤ (ids.allocate taken attempts).2.taken := by
  induction attempts generalizing ids with
  | zero => exact Nat.le_refl _
  | succ attempts ih =>
    unfold Feed.allocate
    dsimp only
    split
    · exact Nat.le_succ _
    · exact Nat.le_trans (Nat.le_succ ids.taken) (ih ids.next.2)

namespace Supplies

def Onward (p p' : Supplies) : Prop := p.ids.taken ≤ p'.ids.taken

variable {p p' : Supplies}

theorem ids_now {now? : Option ClockTime} (shown : p.now = (now?, p')) : p'.ids = p.ids :=
  (congrArg (fun read => read.2.ids) shown).symm

theorem onward_stamp (p : Supplies) (taken : List String) : p.Onward (p.stamp taken).2 := by
  have allocating := Feed.taken_le_allocate taken idAttempts p.ids
  unfold Onward stamp
  split
  · rename_i ids allocated
    rwa [allocated] at allocating
  · rename_i candidate ids allocated
    rw [allocated] at allocating
    dsimp only
    split
    · exact allocating
    · split
      · rename_i shown
        rwa [ids_now shown]
      · rename_i shown _
        rwa [ids_now shown]
      · rename_i shown _
        rwa [ids_now shown]

end Supplies

namespace Store

variable {s : Store} {p : Supplies}

theorem supplies_withRecord {α : Type} (taken : List String) (c : Collection)
    (make : Id → Instant → α) (insert : α → Store) (notes : α → List Note) :
    (s.withRecord p taken c make insert notes).supplies = (p.stamp taken).2 := by
  unfold withRecord
  rcases p.stamp taken with ⟨failure | ⟨id, now⟩, q⟩ <;> rfl

theorem onward_withRecord {α : Type} (taken : List String) (c : Collection)
    (make : Id → Instant → α) (insert : α → Store) (notes : α → List Note) :
    p.Onward (s.withRecord p taken c make insert notes).supplies := by
  rw [supplies_withRecord]
  exact p.onward_stamp taken

/-- An operation takes nothing from the supplies, or an identifier and the time. -/
theorem onward_perform (op : Operation) : p.Onward (s.perform p op).supplies := by
  have same : p.Onward p := Nat.le_refl _
  cases op with
  | addFeature name description category =>
    simp only [perform, Outcome.map, addFeature]
    split
    · exact same
    · exact onward_withRecord ..
  | removeFeature id =>
    simp only [perform, Outcome.map, removeFeature]
    split <;> exact same
  | toggleFeature id =>
    simp only [perform, Outcome.map, toggleFeature]
    split <;> exact same
  | setFeatureEnabled id enabled =>
    simp only [perform, Outcome.map, setFeatureEnabled]
    split
    · exact same
    · split <;> exact same
  | appendGps lat lng accuracy =>
    simp only [perform, Outcome.map, appendGps]
    split
    · exact same
    · exact onward_withRecord ..
  | appendPhoto uri =>
    simp only [perform, Outcome.map, appendPhoto]
    split
    · exact same
    · exact onward_withRecord ..
  | appendCommand command result kind =>
    simp only [perform, Outcome.map, appendCommand]
    split
    · exact same
    · exact onward_withRecord ..
  | enqueueEmail subject body => exact onward_withRecord ..
  | markEmailSent id =>
    simp only [perform, Outcome.map, markEmailSent]
    split <;> exact same
  | clearCommands | clearGps | setEmailAddress | setOnline => exact same

end Store

namespace Interpreter

variable {platform : Value} {line : CommandLine} {verb : Verb} {snapshot : Snapshot} {s : Store}
  {p : Supplies}

theorem onward_operate (op : Operation) (respond : Produced → Reply) :
    p.Onward (operate line verb s p op respond).supplies := by
  have performed := Store.onward_perform (s := s) (p := p) op
  unfold operate
  dsimp only
  split <;> exact performed

theorem onward_carryOut (found : Plan) : p.Onward (carryOut line verb s p found).supplies := by
  cases found with
  | reply r => exact Nat.le_refl _
  | operate op respond => exact onward_operate op respond
  | operateAt op respond =>
    rcases shown : p.now with ⟨now?, q⟩
    have same : p.Onward q := Nat.le_of_eq (congrArg Feed.taken (Supplies.ids_now shown).symm)
    cases now? with
    | none =>
      simp only [carryOut, shown]
      exact same
    | some now =>
      simp only [carryOut, shown]
      exact Nat.le_trans same (onward_operate (op now) respond)

theorem onward_interpret : p.Onward (interpret platform line snapshot s p).supplies := by
  have same : p.Onward p := Nat.le_refl _
  unfold interpret
  split
  · exact same
  · split
    · exact same
    · split
      · exact same
      · exact onward_carryOut _

end Interpreter

/-- Regular supplies, of whose identifiers those that are left are not empty, not taken, and differ
from each other. -/
structure Supplies.Lasting (p : Supplies) (taken : List String) : Prop where
  regular : p.Regular
  free : ∀ n, p.ids.taken ≤ n → ∃ s, p.ids.item n = .text s ∧ s ≠ "" ∧ s ∉ taken
  distinct : ∀ m n, p.ids.taken ≤ m → p.ids.taken ≤ n → p.ids.item m = p.ids.item n → m = n

namespace Supplies.Lasting

variable {p p' : Supplies} {taken taken' : List String}

theorem mono (h : p.Lasting taken) (passes : p.Passes p') (onward : p.Onward p')
    (fewer : ∀ s ∈ taken', s ∈ taken) : p'.Lasting taken' where
  regular := passes.regular h.regular
  free n left := by
    obtain ⟨s, handed, nonempty, untaken⟩ := h.free n (Nat.le_trans onward left)
    exact ⟨s, passes.ids ▸ handed, nonempty, fun among => untaken (fewer s among)⟩
  distinct m n hm hn same :=
    h.distinct m n (Nat.le_trans onward hm) (Nat.le_trans onward hn)
      (by rwa [passes.ids] at same)

/-- The next identifier is handed out, and those that are left are free of it. -/
theorem stamp (h : p.Lasting taken) : ∃ id now p', p.stamp taken = (.ok (id, now), p') ∧
    p'.Lasting (id.text :: taken) := by
  obtain ⟨s, handed, nonempty, untaken⟩ := h.free p.ids.taken (Nat.le_refl _)
  obtain ⟨now, shown⟩ := h.regular.shown p.clock.taken
  refine ⟨⟨s, nonempty⟩, now.instant, _,
    stamp_first (k := 0) (by decide) handed nonempty untaken nofun shown, ?_⟩
  refine ⟨⟨h.regular.texts, h.regular.shown⟩, fun n left => ?_, fun m n hm hn => ?_⟩
  · obtain ⟨s', handed', nonempty', untaken'⟩ := h.free n (Nat.le_of_succ_le left)
    refine ⟨s', handed', nonempty', ?_⟩
    rw [List.mem_cons, not_or]
    refine ⟨?_, untaken'⟩
    rintro rfl
    have again := h.distinct _ _ (Nat.le_refl _) (Nat.le_of_succ_le left) (handed.trans handed'.symm)
    exact Nat.not_succ_le_self _ (again ▸ left)
  · exact h.distinct m n (Nat.le_of_succ_le hm) (Nat.le_of_succ_le hn)

end Supplies.Lasting

namespace Engine

variable {μ : Type} {e : Engine μ}

def IsStocked (e : Engine μ) : Prop := e.supplies.Lasting e.store.commandIds

theorem Interprets.onward {raw : String} {i : Outcome Reply} (h : e.Interprets raw i) :
    e.supplies.Passes i.supplies ∧ e.supplies.Onward i.supplies := by
  obtain ⟨asks, q, passes, does⟩ := h.does
  refine ⟨passes.trans does.passes, ?_⟩
  obtain ⟨snapshot, p, seen, outcome⟩ := h
  have same : e.supplies.ids = p.ids :=
    congrArg (fun read : Option Snapshot × Supplies => read.2.ids) seen
  rw [Supplies.Onward, same, outcome]
  exact Interpreter.onward_interpret

theorem Interprets.lasting {raw : String} {i : Outcome Reply} {reply : Reply}
    (h : e.Interprets raw i) (replied : i.result = .ok reply) (stocked : e.IsStocked) :
    i.supplies.Lasting i.store.commandIds := by
  refine stocked.mono h.onward.1 h.onward.2 fun s among => ?_
  rw [Store.commandIds, h.commandLogs replied] at among
  split at among
  · cases among
  · exact among

end Engine

end ControlPanel
