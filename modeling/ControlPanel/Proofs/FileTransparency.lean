import ControlPanel.Proofs.FileRoundTrip
import ControlPanel.Proofs.ParallelWriters

/-!
# Files that are no different from memory

What is stored as text has no line ends that a file could change. So files give back every text of
a collection, and whatever is saved to files is loaded as if it had been saved in memory.
-/
namespace ControlPanel

namespace FileMedium

/-- Files that can be written and a healthy memory, of which the same is read; also once the
directory has been made, which may bring files to light when its path goes up again. -/
structure Mirrors (f : FileMedium) (m : MemoryMedium) : Prop where
  legible : m.readFaults = []
  writable : m.writeFault? = none
  accepts : ∀ (c : Collection) (text : String), (f.write c.key text).1 = none
  reads : ∀ c : Collection, f.read c.key = .ok (m.get? c.key)
  appears : ∀ c : Collection, f.prepared.read c.key = .ok (m.get? c.key)

/-- A text that is written to both shows in both, and nothing else does that did not. -/
theorem Mirrors.write {f : FileMedium} {m : MemoryMedium} {c : Collection} {text : String}
    (h : f.Mirrors m) (visible : Json.AllVisible text.toList) :
    (f.write c.key text).2.Mirrors (m.put c.key text) := by
  obtain ⟨place, serves, written⟩ := serves_of_write (h.accepts c text)
  have own : (f.write c.key text).2.read c.key = .ok (some text) :=
    read_of_write visible (Prod.ext (h.accepts c text) rfl)
  rw [written] at own ⊢
  have kept (c' : Collection) : ∃ place', f.prepared.Serves c'.key place' ∧
      (f.prepared.put place text).Serves c'.key place' := by
    obtain ⟨place', serves', -⟩ := serves_of_write (h.accepts c' text)
    exact ⟨place', serves', serves'.put serves.free text⟩
  have reads (c' : Collection) :
      (f.prepared.put place text).read c'.key = .ok ((m.put c.key text).get? c'.key) := by
    by_cases same : c = c'
    · subst same
      simpa [MemoryMedium.get?, MemoryMedium.put, WriteQueue.lookup_insert] using own
    · obtain ⟨place', serves', -⟩ := kept c'
      have apart : c'.key ≠ c.key := fun keys => same (Collection.key_injective keys).symm
      rw [read_put_of_ne serves serves' same, h.appears c']
      simp [MemoryMedium.get?, MemoryMedium.put, WriteQueue.lookup_insert, apart]
  refine ⟨h.legible, h.writable, fun c' other => ?_, reads, fun c' => ?_⟩
  · obtain ⟨place', -, serves'⟩ := kept c'
    rw [serves'.write_eq other]
  · obtain ⟨place', -, serves'⟩ := kept c'
    rw [prepared_of_isDirectory serves'.made]
    exact reads c'

theorem isParallel_mirrors : IsParallel Mirrors := by
  rintro f m h ⟨_, text⟩ ⟨c, v, rfl, encoded⟩
  have stored : Medium.write m c.key text = (none, m.put c.key text) := by
    simp only [Medium.write, h.writable]
  dsimp only at encoded ⊢
  rw [stored]
  exact ⟨h.accepts c text, h.write (Archive.allVisible_encodeValue encoded)⟩

def fresh : FileMedium :=
  ⟨⟨.single, ["state"]⟩, FileTree.empty.insert ⟨.single, ["state"]⟩ .directory⟩

end FileMedium

end ControlPanel
