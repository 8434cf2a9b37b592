import ControlPanel.Proofs.DiscreetMedia
import ControlPanel.Proofs.Loading

/-!
# Files are read as they were written

A write that succeeds puts its text where the next read of the same key looks for it, and changes
no other file. Text without control characters comes back as it is.
-/
namespace ControlPanel

open Storage (of_bind_ok)

namespace FileTree

variable {t t' : FileTree} {p start place other : Path} {part : String} {node : FileNode}
  {bytes : ByteArray}

theorem parts_ne_nil (free : t.lookup? place ≠ some .directory) : place.parts ≠ [] := by
  intro root
  exact free (by simp [lookup?, root])

theorem lookup_insert_self (below : place.parts ≠ []) :
    (t.insert place node).lookup? place = some node := by
  simp [lookup?, insert, below]

theorem lookup_insert_of_ne (apart : place ≠ other) :
    (t.insert place node).lookup? other = t.lookup? other := by
  simp [lookup?, insert, Std.HashMap.getElem?_insert, apart]

structure Keeps (t t' : FileTree) : Prop where
  pathLimit : t'.pathLimit = t.pathLimit
  directory : ∀ place, t.lookup? place = some .directory → t'.lookup? place = some .directory

namespace Keeps

/-- What is put at a free place, or in place of a file, leaves the directories. -/
theorem insert (free : t.lookup? place ≠ some .directory) : t.Keeps (t.insert place node) := by
  refine ⟨rfl, fun other there => ?_⟩
  have apart : place ≠ other := by
    rintro rfl
    exact free there
  rwa [lookup_insert_of_ne apart]

theorem checkLength (h : t.Keeps t') (p : Path) : t'.checkLength p = t.checkLength p := by
  simp only [FileTree.checkLength, h.pathLimit]

theorem descend (h : t.Keeps t') (down : t.descend start part = .ok place) :
    t'.descend start part = .ok place := by
  unfold FileTree.descend at down ⊢
  split at down
  · cases down
  · rename_i short
    rw [if_neg short]
    split at down
    · rename_i up
      rwa [if_pos up]
    · rename_i named
      rw [if_neg named]
      split at down
      · rename_i there
        rwa [h.directory _ there]
      · cases down
      · cases down

theorem descendAll {parts : List String} (h : t.Keeps t')
    (down : parts.foldlM t.descend start = .ok place) :
    parts.foldlM t'.descend start = .ok place := by
  induction parts generalizing start with
  | nil => exact down
  | cons part parts ih =>
    obtain ⟨next, first, rest⟩ := of_bind_ok down
    rw [List.foldlM_cons, h.descend first]
    exact ih rest

theorem resolve (h : t.Keeps t') (found : t.resolve p = .ok place) : t'.resolve p = .ok place := by
  obtain ⟨_, fits, down⟩ := of_bind_ok found
  unfold FileTree.resolve
  rw [h.checkLength, fits]
  exact h.descendAll down

theorem locate (h : t.Keeps t') (found : t.locate p = .ok place) : t'.locate p = .ok place := by
  obtain ⟨_, fits, last⟩ := of_bind_ok found
  unfold FileTree.locate
  rw [h.checkLength, fits]
  simp only [bind, Except.bind]
  split at last
  · exact last
  · obtain ⟨parent, above, named⟩ := of_bind_ok last
    rw [h.resolve above]
    exact named

end Keeps

def IsOpen (t : FileTree) (place : Path) : Prop :=
  ∀ n, t.lookup? { place with parts := place.parts.take n } = some .directory

namespace IsOpen

theorem lookup (h : t.IsOpen place) : t.lookup? place = some .directory := by
  have whole := h place.parts.length
  rwa [List.take_length] at whole

theorem up (h : t.IsOpen place) : t.IsOpen { place with parts := place.parts.dropLast } := by
  intro n
  have kept := h (min n (place.parts.length - 1))
  rwa [← List.take_take, ← List.dropLast_eq_take] at kept

theorem child (h : t.IsOpen place) (there : t.lookup? (child place part) = some .directory) :
    t.IsOpen (child place part) := by
  intro n
  by_cases inside : n ≤ place.parts.length
  · have kept := h n
    rwa [FileTree.child, List.take_append_of_le_length inside]
  · have whole : (FileTree.child place part).parts.take n = (FileTree.child place part).parts :=
      List.take_of_length_le (by simp [FileTree.child]; omega)
    rwa [whole]

theorem descend (h : t.IsOpen start) (down : t.descend start part = .ok place) :
    t.IsOpen place := by
  unfold FileTree.descend at down
  split at down
  · cases down
  · split at down
    · cases down
      exact h.up
    · split at down
      · rename_i there
        cases down
        exact h.child there
      · cases down
      · cases down

theorem descendAll {parts : List String} (h : t.IsOpen start)
    (down : parts.foldlM t.descend start = .ok place) : t.IsOpen place := by
  induction parts generalizing start with
  | nil =>
    cases down
    exact h
  | cons part parts ih =>
    obtain ⟨next, first, rest⟩ := of_bind_ok down
    exact ih (h.descend first) rest

theorem root (t : FileTree) (p : Path) : t.IsOpen { p with parts := [] } := by
  intro n
  simp [lookup?]

end IsOpen

theorem isOpen_of_resolve (found : t.resolve p = .ok place) : t.IsOpen place := by
  obtain ⟨_, -, down⟩ := of_bind_ok found
  exact (IsOpen.root t p).descendAll down

def placeIn (parent : Path) (name : String) : Except FileFault Path :=
  if nameLimit < name.utf8ByteSize then .error .nameTooLong
  else if name = ".." then .ok { parent with parts := parent.parts.dropLast }
  else .ok (child parent name)

/-- One part leads to the place that it names or, where there is no directory, nowhere. -/
theorem descend_of_placeIn (named : placeIn start part = .ok place) :
    (∀ other, t.descend start part = .ok other → other = place) ∧
      (t.lookup? place = some .directory → t.descend start part = .ok place) := by
  unfold placeIn at named
  unfold descend
  split at named
  · cases named
  · rename_i short
    rw [if_neg short]
    split at named
    · rename_i up
      rw [if_pos up]
      exact ⟨fun other same => Except.ok.inj (same.symm.trans named), fun _ => named⟩
    · rename_i down
      rw [if_neg down]
      cases named
      refine ⟨fun other found => ?_, fun there => by rw [there]⟩
      split at found
      · exact (Except.ok.inj found).symm
      · cases found
      · cases found

/-- A path leads to the place that it names or, where there is no directory, nowhere. -/
theorem resolve_of_locate (located : t.locate p = .ok place) :
    (∀ other, t.resolve p = .ok other → other = place) ∧
      (t.lookup? place = some .directory → t.resolve p = .ok place) := by
  obtain ⟨_, fits, last⟩ := of_bind_ok located
  have whole : t.resolve p = p.parts.foldlM t.descend { p with parts := [] } := by
    unfold resolve
    rw [fits]
    rfl
  rw [whole]
  split at last
  · rename_i none_left
    obtain ⟨root, parts⟩ := p
    obtain rfl : parts = [] := List.getLast?_eq_none_iff.mp none_left
    exact ⟨fun other same => Except.ok.inj (same.symm.trans last), fun _ => last⟩
  · rename_i name ends
    obtain ⟨parent, above, named⟩ := of_bind_ok last
    obtain ⟨_, -, before⟩ := of_bind_ok above
    have steps : p.parts.foldlM t.descend { p with parts := [] } = t.descend parent name := by
      rw [← List.dropLast_append_getLast? name ends, List.foldlM_append, before]
      exact bind_pure (t.descend parent name)
    rw [steps]
    exact descend_of_placeIn named

theorem isDirectory_iff : t.isDirectory p = true ↔ ∃ place, t.resolve p = .ok place := by
  unfold isDirectory
  cases t.resolve p <;> simp

theorem Keeps.isDirectory (h : t.Keeps t') (there : t.isDirectory p = true) :
    t'.isDirectory p = true := by
  obtain ⟨place, found⟩ := isDirectory_iff.mp there
  exact isDirectory_iff.mpr ⟨place, h.resolve found⟩

/-- What has been made is a directory. -/
theorem isDirectory_of_makeDirectory (made : t.makeDirectory p = .ok t') :
    t'.isDirectory p = true := by
  obtain ⟨place, located, made⟩ := of_bind_ok made
  split at made
  · cases made
  · rename_i free
    cases made
    have free : t.lookup? place ≠ some .directory := by simp [free]
    have there : (t.insert place .directory).lookup? place = some .directory :=
      lookup_insert_self (parts_ne_nil free)
    have kept := (resolve_of_locate ((Keeps.insert free).locate located)).2 there
    exact isDirectory_iff.mpr ⟨place, kept⟩

theorem eq_nameTooLong_of_checkLength {fault : FileFault}
    (failed : t.checkLength p = .error fault) : fault = .nameTooLong := by
  unfold checkLength at failed
  split at failed
  · exact (Except.error.inj failed).symm
  · cases failed

theorem eq_nameTooLong_of_placeIn {fault : FileFault} (failed : placeIn start part = .error fault) :
    fault = .nameTooLong := by
  unfold placeIn at failed
  split at failed
  · exact (Except.error.inj failed).symm
  · split at failed <;> cases failed

/-- The path of a directory fails to name a place only for its length. -/
theorem eq_nameTooLong_of_locate {fault : FileFault} (found : t.resolve p = .ok place)
    (failed : t.locate p = .error fault) : fault = .nameTooLong := by
  obtain ⟨_, fits, down⟩ := of_bind_ok found
  unfold locate at failed
  rw [fits] at failed
  simp only [bind, Except.bind] at failed
  split at failed
  · cases failed
  · rename_i name ends
    rw [← List.dropLast_append_getLast? name ends, List.foldlM_append] at down
    obtain ⟨parent, before, -⟩ := of_bind_ok down
    have above : t.resolve { p with parts := p.parts.dropLast } =
        (t.checkLength { p with parts := p.parts.dropLast }).bind fun _ => .ok parent :=
      congrArg (Except.bind _) (funext fun _ => before)
    rw [above] at failed
    cases short : t.checkLength { p with parts := p.parts.dropLast } with
    | error fault' =>
      rw [short] at failed
      cases failed
      exact eq_nameTooLong_of_checkLength short
    | ok =>
      rw [short] at failed
      have final : placeIn parent name = .error fault := failed
      exact eq_nameTooLong_of_placeIn final

/-- A directory is not made again, and nothing is missing above it. -/
theorem makeDirectory_of_isDirectory (there : t.isDirectory p = true) :
    ∃ fault, t.makeDirectory p = .error fault ∧ fault ≠ .noEntry := by
  obtain ⟨place, found⟩ := isDirectory_iff.mp there
  unfold makeDirectory
  cases located : t.locate p with
  | error fault =>
    refine ⟨fault, rfl, ?_⟩
    rw [eq_nameTooLong_of_locate found located]
    decide
  | ok other =>
    obtain rfl := (resolve_of_locate located).1 place found
    have directory := (isOpen_of_resolve found).lookup
    refine ⟨.occupied, ?_, by decide⟩
    simp only [bind, Except.bind, directory]
    rfl

/-- A directory that is there already is made with no change. -/
theorem makeDirectories_of_isDirectory (there : t.isDirectory p = true) :
    t.makeDirectories p = (none, t) := by
  obtain ⟨fault, refused, above⟩ := makeDirectory_of_isDirectory there
  unfold makeDirectories makeDirectoriesFrom
  rw [refused]
  cases fault with
  | noEntry => exact absurd rfl above
  | _ => simp [madeDirectory, there]

theorem isDirectory_of_madeDirectory
    (fine : (t.madeDirectory p (t.makeDirectory p)).1 = none) :
    (t.madeDirectory p (t.makeDirectory p)).2.isDirectory p = true := by
  cases result : t.makeDirectory p with
  | ok made => exact isDirectory_of_makeDirectory result
  | error fault =>
    simp only [result, madeDirectory, ite_eq_left_iff, reduceCtorEq, imp_false, not_not] at fine
    exact fine

/-- Directories that have been made without a fault are there. -/
theorem isDirectory_of_makeDirectories (fine : (t.makeDirectories p).1 = none) :
    (t.makeDirectories p).2.isDirectory p = true := by
  have direct : (t.madeDirectory p (t.makeDirectory p)).1 = none →
      (t.madeDirectory p (t.makeDirectory p)).2.isDirectory p = true :=
    isDirectory_of_madeDirectory
  unfold makeDirectories makeDirectoriesFrom at fine ⊢
  cases first : t.makeDirectory p with
  | ok made =>
    rw [first] at fine direct
    exact direct fine
  | error fault =>
    rw [first] at fine direct
    cases fault with
    | noEntry =>
      dsimp only at fine ⊢
      rcases made : makeDirectoriesFrom t p.parts.length { p with parts := p.parts.dropLast } with
        ⟨fault?, above⟩
      rw [made] at fine
      cases fault? with
      | none => exact isDirectory_of_madeDirectory fine
      | some fault => cases fine
    | _ => exact direct fine

theorem write_eq_ok_iff : t.write p bytes = .ok t' ↔ ∃ place, t.locate p = .ok place ∧
    t.lookup? place ≠ some .directory ∧ t' = t.insert place (.file bytes) := by
  constructor
  · intro written
    obtain ⟨place, located, put⟩ := of_bind_ok written
    split at put
    · cases put
    · rename_i free
      exact ⟨place, located, free, (Except.ok.inj put).symm⟩
  · rintro ⟨place, located, free, rfl⟩
    unfold write
    rw [located]
    simp only [bind, Except.bind]
    rfl

theorem read_insert_self (located : t.locate p = .ok place)
    (free : t.lookup? place ≠ some .directory) :
    (t.insert place (.file bytes)).read p = .ok bytes := by
  have kept : (t.insert place (.file bytes)).locate p = .ok place :=
    (Keeps.insert free).locate located
  unfold read
  rw [kept]
  simp only [bind, Except.bind, lookup_insert_self (parts_ne_nil free)]
  rfl

/-- A file that is put elsewhere does not show. -/
theorem read_insert_of_ne (located : t.locate p = .ok place)
    (free : t.lookup? other ≠ some .directory) (apart : other ≠ place) :
    (t.insert other (.file bytes)).read p = t.read p := by
  have kept : (t.insert other (.file bytes)).locate p = .ok place :=
    (Keeps.insert free).locate located
  unfold read
  rw [kept, located]
  simp only [bind, Except.bind, lookup_insert_of_ne apart]

end FileTree

namespace FileMedium

variable {m m' : FileMedium} {c c' : Collection} {text : String}

/-- The medium once its directory has been made, as far as it can be. -/
def prepared (m : FileMedium) : FileMedium :=
  { m with tree := (m.tree.makeDirectories m.directory).2 }

theorem prepared_of_isDirectory (there : m.tree.isDirectory m.directory = true) :
    m.prepared = m := by
  simp [prepared, FileTree.makeDirectories_of_isDirectory there]

/-- All that a write of a key asks of a medium: its directory is there, and so is a place for the
temporary file and one for the file itself, which is no directory. -/
structure Serves (m : FileMedium) (key : String) (place : Path) : Prop where
  named : hasZero m.directory = false
  made : m.tree.isDirectory m.directory = true
  temporary_named : hasZero (m.temporaryPath key) = false
  temporary : ∃ free, m.tree.locate (m.temporaryPath key) = .ok free
  located : m.tree.locate (m.pathOf key) = .ok place
  free : m.tree.lookup? place ≠ some .directory

def put (m : FileMedium) (place : Path) (text : String) : FileMedium :=
  { m with tree := m.tree.insert place (.file text.toUTF8) }

namespace Serves

variable {key : String} {place : Path}

theorem write_eq (h : m.Serves key place) (text : String) :
    m.write key text = (none, m.put place text) := by
  have written : m.tree.write (m.pathOf key) text.toUTF8 =
      .ok (m.tree.insert place (.file text.toUTF8)) :=
    FileTree.write_eq_ok_iff.mpr ⟨place, h.located, h.free, rfl⟩
  obtain ⟨free, temporary⟩ := h.temporary
  unfold write
  simp only [h.named, FileTree.makeDirectories_of_isDirectory h.made, h.temporary_named, temporary,
    Bool.false_eq_true, if_false]
  simp only [pathOf] at written ⊢
  rw [written]
  rfl

/-- A file that is put where no directory is leaves all keys that can be written writable. -/
theorem put {other : Path} (h : m.Serves key place)
    (free : m.tree.lookup? other ≠ some .directory) (text : String) :
    (m.put other text).Serves key place := by
  have kept : m.tree.Keeps (m.put other text).tree := .insert free
  refine ⟨h.named, kept.isDirectory h.made, h.temporary_named, ?_, kept.locate h.located, ?_⟩
  · exact h.temporary.imp fun free found => kept.locate found
  · by_cases same : other = place
    · subst same
      simp [FileMedium.put, FileTree.lookup_insert_self (FileTree.parts_ne_nil h.free)]
    · simpa [FileMedium.put, FileTree.lookup_insert_of_ne same] using h.free

end Serves

theorem pathOf_key (m : FileMedium) (c : Collection) :
    m.pathOf c.key = { m.directory with parts := m.directory.parts ++ [c.fileName] } := by
  simp [pathOf, ofText_fileName, Path.append]

theorem hasZero_concat {p : Path} {name : String} (plain : name.toList.any (·.toNat = 0) = false) :
    hasZero { p with parts := p.parts ++ [name] } = hasZero p := by
  simp [hasZero, plain]

theorem hasZero_pathOf (m : FileMedium) (c : Collection) :
    hasZero (m.pathOf c.key) = hasZero m.directory := by
  rw [pathOf_key]
  exact hasZero_concat (by cases c <;> decide)

/-- A write that succeeds is one on the medium with its directory made. -/
theorem serves_of_write {key : String} (written : (m.write key text).1 = none) :
    ∃ place, m.prepared.Serves key place ∧
      m.write key text = (none, m.prepared.put place text) := by
  unfold write at written ⊢
  dsimp only at written ⊢
  split at written
  · cases written
  · rename_i named
    rw [if_neg named]
    rcases made : m.tree.makeDirectories m.directory with ⟨fault?, tree⟩
    rw [made] at written
    cases fault? with
    | some => cases written
    | none =>
      have same : m.prepared = ⟨m.directory, tree⟩ := by simp [prepared, made]
      have directory : tree.isDirectory m.directory = true := by
        have there := FileTree.isDirectory_of_makeDirectories (congrArg Prod.fst made)
        rwa [made] at there
      rw [same]
      dsimp only at written ⊢
      split at written
      · cases written
      · rename_i temporary_named
        rw [if_neg temporary_named]
        split at written
        · cases written
        · rename_i spare temporary
          split at written
          · cases written
          · rename_i tree' put
            obtain ⟨place, located, free, rfl⟩ := FileTree.write_eq_ok_iff.mp put
            exact ⟨place, ⟨by simpa using named, directory, by simpa using temporary_named,
              ⟨spare, temporary⟩, located, free⟩, rfl⟩

/-- Reading gives the text of a file back if it has no control characters. -/
theorem read_of_file {key : String} (named : hasZero (m.pathOf key) = false)
    (visible : Json.AllVisible text.toList) (there : m.tree.read (m.pathOf key) = .ok text.toUTF8) :
    m.read key = .ok (some text) := by
  unfold read
  simp only [named, Bool.false_eq_true, if_false, there, Text.ofUtf8_toUTF8,
    unifyLines_of_visible visible, String.ofList_toList]

/-- What was written is read again. -/
theorem read_of_write (visible : Json.AllVisible text.toList)
    (written : m.write c.key text = (none, m')) : m'.read c.key = .ok (some text) := by
  obtain ⟨place, serves, same⟩ := serves_of_write (congrArg Prod.fst written)
  obtain rfl : m.prepared.put place text = m' := (Prod.mk.inj (same.symm.trans written)).2
  have named : hasZero ((m.prepared.put place text).pathOf c.key) = false := by
    rw [hasZero_pathOf]
    exact serves.named
  exact read_of_file named visible (FileTree.read_insert_self serves.located serves.free)

/-- A write leaves the files of other collections. -/
theorem read_put_of_ne {place place' : Path} (h : m.Serves c.key place)
    (h' : m.Serves c'.key place') (other : c ≠ c') :
    (m.put place text).read c'.key = m.read c'.key := by
  have apart : place ≠ place' := by
    rintro rfl
    have last := getLast_of_locate h.located
    rw [getLast_of_locate h'.located] at last
    exact other (Collection.fileName_injective (Option.some.inj last)).symm
  have kept : (m.put place text).tree.read ((m.put place text).pathOf c'.key) =
      m.tree.read (m.pathOf c'.key) :=
    FileTree.read_insert_of_ne h'.located h.free apart
  unfold read
  dsimp only
  rw [kept]
  rfl

end FileMedium

end ControlPanel
