import ControlPanel.FileMedium
import ControlPanel.Proofs.JsonOneLine

/-!
# Media that make nothing up

What is read from a medium was written to it. Nothing is asked of a write that fails: it may have
changed the medium or not. Media in memory and files are such media.
-/
namespace ControlPanel

/-- A medium that yields only texts that it holds. After a write it holds what it held before and at
most the text that was written. Texts with control characters are excluded, since a medium may
change the line ends in them. -/
class HonestMedium (μ : Type) [Medium μ] where
  Holds : μ → String → Prop
  holds_of_read {m : μ} {key text : String} : Medium.read m key = .ok (some text) → Holds m text
  holds_of_write {m : μ} {key text other : String} : Json.AllVisible text.toList →
    Holds (Medium.write m key text).2 other → Holds m other ∨ other = text

namespace MemoryMedium

theorem mem_insert {key text : String} {entries : List (String × String)} {entry : String × String}
    (h : entry ∈ insert key text entries) : entry ∈ entries ∨ entry = (key, text) := by
  induction entries with
  | nil => exact .inr (List.mem_singleton.mp h)
  | cons first rest ih =>
    obtain ⟨other, old⟩ := first
    unfold insert at h
    split at h
    · exact (List.mem_cons.mp h).elim .inr fun later => .inl (List.mem_cons_of_mem _ later)
    · rcases List.mem_cons.mp h with rfl | later
      · exact .inl List.mem_cons_self
      · exact (ih later).imp_left (List.mem_cons_of_mem _)

instance : HonestMedium MemoryMedium where
  Holds m text := ∃ key, (key, text) ∈ m.entries
  holds_of_read {m key text} h := by
    simp only [Medium.read] at h
    split at h
    · cases h
    · obtain ⟨front, back, parts, -⟩ := List.lookup_eq_some_iff.mp (Except.ok.inj h)
      exact ⟨key, by simp [parts]⟩
  holds_of_write {m key text other} _ h := by
    obtain ⟨key', held⟩ := h
    simp only [Medium.write] at held
    split at held
    · exact .inl ⟨key', held⟩
    · exact (mem_insert held).imp (⟨key', ·⟩) fun own => (Prod.mk.inj own).2

end MemoryMedium

namespace FileTree

variable {t t' : FileTree} {p place : Path} {bytes bytes' : ByteArray}

def HasFile (t : FileTree) (place : Path) (bytes : ByteArray) : Prop :=
  t.nodes[place]? = some (.file bytes)

theorem hasFile_insert {other : Path} {node : FileNode}
    (h : (t.insert other node).HasFile place bytes) : t.HasFile place bytes ∨ node = .file bytes := by
  unfold HasFile insert at h
  rw [Std.HashMap.getElem?_insert] at h
  split at h
  · exact .inr (Option.some.inj h)
  · exact .inl h

theorem hasFile_of_read (h : t.read p = .ok bytes) : ∃ place, t.HasFile place bytes := by
  unfold read at h
  cases located : t.locate p with
  | error fault => simp [located, bind, Except.bind] at h
  | ok place =>
    simp only [located, bind, Except.bind] at h
    split at h
    · rename_i bytes' found
      cases h
      unfold lookup? at found
      split at found
      · cases found
      · exact ⟨place, found⟩
    · cases h
    · cases h

theorem hasFile_of_write (h : t.write p bytes = .ok t') (held : t'.HasFile place bytes') :
    t.HasFile place bytes' ∨ bytes' = bytes := by
  unfold write at h
  cases located : t.locate p with
  | error fault => simp [located, bind, Except.bind] at h
  | ok other =>
    simp only [located, bind, Except.bind] at h
    split at h
    · cases h
    · cases h
      exact (hasFile_insert held).imp_right fun own => (FileNode.file.inj own).symm

theorem hasFile_of_makeDirectory (h : t.makeDirectory p = .ok t') (held : t'.HasFile place bytes) :
    t.HasFile place bytes := by
  unfold makeDirectory at h
  cases located : t.locate p with
  | error fault => simp [located, bind, Except.bind] at h
  | ok other =>
    simp only [located, bind, Except.bind] at h
    split at h
    · cases h
    · cases h
      exact (hasFile_insert held).resolve_right nofun

theorem hasFile_of_madeDirectory {other : FileTree}
    (held : (t.madeDirectory p (other.makeDirectory p)).2.HasFile place bytes) :
    t.HasFile place bytes ∨ other.HasFile place bytes := by
  cases made : other.makeDirectory p with
  | ok t' =>
    rw [made] at held
    exact .inr (hasFile_of_makeDirectory made held)
  | error fault =>
    rw [made] at held
    exact .inl held

/-- Making directories makes no file. -/
theorem hasFile_of_makeDirectories {fuel : Nat}
    (held : (t.makeDirectoriesFrom fuel p).2.HasFile place bytes) : t.HasFile place bytes := by
  induction fuel generalizing p place bytes with
  | zero => exact held
  | succ fuel ih =>
    unfold makeDirectoriesFrom at held
    split at held
    · split at held
      · rename_i above made
        have kept : above.HasFile place bytes → t.HasFile place bytes := by
          intro there
          exact ih (by rwa [made])
        exact (hasFile_of_madeDirectory held).elim kept kept
      · exact ih held
    · exact (hasFile_of_madeDirectory held).elim id id

end FileTree

namespace FileMedium

theorem unifyLines_of_visible {cs : List Char} (h : Json.AllVisible cs) :
    Text.unifyLines cs = cs := by
  induction cs with
  | nil => rfl
  | cons c cs ih =>
    obtain ⟨visible, others⟩ := Json.allVisible_cons.mp h
    have other : c ≠ '\r' := by
      rintro rfl
      exact absurd visible (by decide)
    unfold Text.unifyLines
    split
    · rename_i same
      cases same
    · rename_i same
      exact absurd (List.cons.inj same).1 other
    · rename_i same
      cases same
      rw [if_neg other, ih others]

def Holds (m : FileMedium) (text : String) : Prop :=
  ∃ place bytes s, m.tree.HasFile place bytes ∧ Text.ofUtf8? bytes = .ok s ∧
    text = String.ofList (Text.unifyLines s.toList)

theorem holds_of_read {m : FileMedium} {key text : String} (h : m.read key = .ok (some text)) :
    m.Holds text := by
  unfold read at h
  dsimp only at h
  split at h
  · cases h
  · split at h
    · cases h
    · cases h
    · rename_i bytes found
      split at h
      · rename_i s decoded
        cases h
        obtain ⟨place, there⟩ := FileTree.hasFile_of_read found
        exact ⟨place, bytes, s, there, decoded, rfl⟩
      · cases h

theorem hasFile_of_write {m : FileMedium} {key text : String} {place : Path} {bytes : ByteArray}
    (h : (m.write key text).2.tree.HasFile place bytes) :
    m.tree.HasFile place bytes ∨ bytes = text.toUTF8 := by
  unfold write at h
  dsimp only at h
  split at h
  · exact .inl h
  · rcases made : m.tree.makeDirectories m.directory with ⟨fault?, tree⟩
    have kept (there : tree.HasFile place bytes) : m.tree.HasFile place bytes := by
      have after : (m.tree.makeDirectories m.directory).2.HasFile place bytes := by rwa [made]
      exact FileTree.hasFile_of_makeDirectories after
    rw [made] at h
    dsimp only at h
    -- Until the file itself is written, a fault leaves the tree with its new directories.
    split at h
    · exact .inl (kept h)
    · split at h
      · exact .inl (kept h)
      · split at h
        · exact .inl (kept h)
        · split at h
          · exact .inl (kept h)
          · rename_i tree' written
            exact (FileTree.hasFile_of_write written h).imp_left kept

instance : HonestMedium FileMedium where
  Holds := Holds
  holds_of_read := holds_of_read
  holds_of_write {m key text other} visible h := by
    obtain ⟨place, bytes, s, there, decoded, own⟩ := h
    rcases hasFile_of_write there with old | rfl
    · exact .inl ⟨place, bytes, s, old, decoded, own⟩
    · rw [Text.ofUtf8_toUTF8] at decoded
      cases decoded
      rw [unifyLines_of_visible visible, String.ofList_toList] at own
      exact .inr own

end FileMedium

end ControlPanel
