import ControlPanel.Proofs.AlikeTexts
import ControlPanel.Proofs.Attempts
import ControlPanel.Proofs.HonestMedia
import Mathlib.Data.List.Forall2

/-!
# Media that tell no secrets

Two media that hold texts of which the log tells no difference answer alike: they fail alike, log
the same lines, and hold such texts again after such writes. Media in memory are like that, also
when their writes fail as a script says, and so are files.
-/
namespace ControlPanel

open Archive (TextsAlike)

inductive SameEnd {ε α β : Type} (R : α → β → Prop) : Except ε α → Except ε β → Prop where
  | failed (fault : ε) : SameEnd R (.error fault) (.error fault)
  | done {a : α} {b : β} : R a b → SameEnd R (.ok a) (.ok b)

abbrev ReadsAlike (c : Collection) :
    Except MediumFault (Option String) → Except MediumFault (Option String) → Prop :=
  SameEnd (Option.Rel (TextsAlike c))

/-- Media whose answers and lines depend on no secrets. Texts with control characters are excluded
from writes, since a medium may change the line ends in them. -/
class DiscreetMedium (μ : Type) [Medium μ] where
  Alike : μ → μ → Prop
  refl (m : μ) : Alike m m
  reads {m m' : μ} : Alike m m' → ∀ c : Collection,
    ReadsAlike c (Medium.read m c.key) (Medium.read m' c.key)
  writes {m m' : μ} {c : Collection} {text text' : String} : Alike m m' →
    Json.AllVisible text.toList → Json.AllVisible text'.toList → TextsAlike c text text' →
    (Medium.write m c.key text).1 = (Medium.write m' c.key text').1 ∧
      Alike (Medium.write m c.key text).2 (Medium.write m' c.key text').2 ∧
      Medium.notes m c.key text = Medium.notes m' c.key text'

namespace MemoryMedium

/-- Entries of one key whose texts are alike, if it is that of a collection. -/
def EntryAlike (a b : String × String) : Prop :=
  a.1 = b.1 ∧ ∀ c : Collection, c.key = a.1 → TextsAlike c a.2 b.2

structure Alike (m m' : MemoryMedium) : Prop where
  entries : List.Forall₂ EntryAlike m.entries m'.entries
  readFaults : m.readFaults = m'.readFaults
  writeFault : m.writeFault? = m'.writeFault?

variable {m m' : MemoryMedium}

theorem Alike.refl (m : MemoryMedium) : m.Alike m :=
  ⟨List.forall₂_same.mpr fun _ _ => ⟨rfl, fun _ _ => .refl _ _⟩, rfl, rfl⟩

theorem alike_lookup {as bs : List (String × String)} (h : List.Forall₂ EntryAlike as bs)
    (c : Collection) : ReadsAlike c (.ok (as.lookup c.key)) (.ok (bs.lookup c.key)) := by
  induction h with
  | nil => exact .done .none
  | @cons a b as bs first _ ih =>
    obtain ⟨key, text⟩ := a
    obtain ⟨key', text'⟩ := b
    obtain ⟨rfl, texts⟩ := first
    simp only [List.lookup_cons]
    split
    · rename_i own
      exact .done (.some (texts c (by simpa using own)))
    · exact ih

theorem alike_insert {c : Collection} {text text' : String} {as bs : List (String × String)}
    (h : List.Forall₂ EntryAlike as bs) (texts : TextsAlike c text text') :
    List.Forall₂ EntryAlike (insert c.key text as) (insert c.key text' bs) := by
  have own : EntryAlike (c.key, text) (c.key, text') := by
    refine ⟨rfl, fun c' same => ?_⟩
    rw [Collection.key_injective same]
    exact texts
  induction h with
  | nil => exact .cons own .nil
  | @cons a b as bs first others ih =>
    obtain ⟨key, old⟩ := a
    obtain ⟨key', old'⟩ := b
    obtain ⟨rfl, alike⟩ := first
    simp only [insert]
    split
    · exact .cons own others
    · exact .cons ⟨rfl, alike⟩ ih

theorem Alike.reads (h : m.Alike m') (c : Collection) :
    ReadsAlike c (Medium.read m c.key) (Medium.read m' c.key) := by
  simp only [Medium.read, ← h.readFaults]
  split
  · exact .failed _
  · exact alike_lookup h.entries c

theorem Alike.writes {c : Collection} {text text' : String} (h : m.Alike m')
    (texts : TextsAlike c text text') :
    (Medium.write m c.key text).1 = (Medium.write m' c.key text').1 ∧
      (Medium.write m c.key text).2.Alike (Medium.write m' c.key text').2 := by
  simp only [Medium.write, ← h.writeFault]
  split
  · exact ⟨rfl, h⟩
  · exact ⟨rfl, alike_insert h.entries texts, h.readFaults, h.writeFault⟩

instance : DiscreetMedium MemoryMedium where
  Alike := Alike
  refl := .refl
  reads h := h.reads
  writes h _ _ texts := ⟨(h.writes texts).1, (h.writes texts).2, rfl⟩

end MemoryMedium

namespace ScriptedMedium

structure Alike (m m' : ScriptedMedium) : Prop where
  memory : m.memory.Alike m'.memory
  script : m.script = m'.script
  attempts : m.attempts.length = m'.attempts.length

instance : DiscreetMedium ScriptedMedium where
  Alike := Alike
  refl m := ⟨.refl m.memory, rfl, rfl⟩
  reads h := h.memory.reads
  writes {m m' c text text'} h _ _ texts := by
    have failing : ({ m.memory with writeFault? := m.script m.attempts.length } : MemoryMedium).Alike
        { m'.memory with writeFault? := m'.script m'.attempts.length } :=
      ⟨h.memory.entries, h.memory.readFaults, by rw [h.script, h.attempts]⟩
    obtain ⟨ended, landed⟩ := failing.writes texts
    refine ⟨ended, ⟨landed, h.script, ?_⟩, rfl⟩
    simp only [Medium.write, List.length_append, h.attempts, List.length_singleton]

end ScriptedMedium

def Collection.fileName (c : Collection) : String := c.key ++ ".json"

theorem Collection.fileName_injective : Function.Injective Collection.fileName := by
  intro c c' same
  cases c <;> cases c' <;> first | rfl | exact absurd same (by decide)

inductive FileNode.Alike (place : Path) : FileNode → FileNode → Prop where
  | same (node : FileNode) : Alike place node node
  | texts {c : Collection} {text text' : String} : place.parts.getLast? = some c.fileName →
      Json.AllVisible text.toList → Json.AllVisible text'.toList → TextsAlike c text text' →
      Alike place (.file text.toUTF8) (.file text'.toUTF8)

namespace FileTree

structure Alike (t t' : FileTree) : Prop where
  pathLimit : t.pathLimit = t'.pathLimit
  nodes : ∀ place : Path, Option.Rel (FileNode.Alike place) t.nodes[place]? t'.nodes[place]?

variable {t t' : FileTree}

namespace Alike

theorem lookup (h : t.Alike t') (place : Path) :
    Option.Rel (FileNode.Alike place) (t.lookup? place) (t'.lookup? place) := by
  unfold lookup?
  split
  · exact .some (.same _)
  · exact h.nodes place

theorem descend_eq (h : t.Alike t') : t.descend = t'.descend := by
  funext place part
  have found := h.lookup (child place part)
  unfold descend
  generalize t.lookup? (child place part) = node? at found
  generalize t'.lookup? (child place part) = node'? at found
  cases found with
  | none => rfl
  | some alike => cases alike <;> rfl

theorem resolve_eq (h : t.Alike t') : t.resolve = t'.resolve := by
  funext p
  simp only [resolve, checkLength, h.pathLimit, h.descend_eq]

theorem locate_eq (h : t.Alike t') : t.locate = t'.locate := by
  funext p
  simp only [locate, checkLength, h.pathLimit, h.resolve_eq]

theorem isDirectory_eq (h : t.Alike t') (p : Path) : t.isDirectory p = t'.isDirectory p := by
  simp only [isDirectory, h.resolve_eq]

theorem insert {place : Path} {node node' : FileNode} (h : t.Alike t')
    (alike : FileNode.Alike place node node') : (t.insert place node).Alike (t'.insert place node') := by
  refine ⟨h.pathLimit, fun other => ?_⟩
  simp only [FileTree.insert, Std.HashMap.getElem?_insert]
  by_cases same : place = other
  · subst same
    simpa using Option.Rel.some alike
  · simpa [same] using h.nodes other

theorem makeDirectory (h : t.Alike t') (p : Path) :
    SameEnd Alike (t.makeDirectory p) (t'.makeDirectory p) := by
  unfold FileTree.makeDirectory
  rw [← h.locate_eq]
  cases t.locate p with
  | error fault => exact .failed fault
  | ok place =>
    have found := h.lookup place
    simp only [bind, Except.bind]
    generalize t.lookup? place = node? at found
    generalize t'.lookup? place = node'? at found
    cases found with
    | none => exact .done (h.insert (.same _))
    | some => exact .failed _

theorem madeDirectory {result result' : Except FileFault FileTree} (h : t.Alike t') (p : Path)
    (alike : SameEnd Alike result result') :
    (t.madeDirectory p result).1 = (t'.madeDirectory p result').1 ∧
      (t.madeDirectory p result).2.Alike (t'.madeDirectory p result').2 := by
  cases alike with
  | done alike => exact ⟨rfl, alike⟩
  | failed fault =>
    simp only [FileTree.madeDirectory, h.isDirectory_eq p, true_and]
    exact h

theorem makeDirectoriesFrom (h : t.Alike t') (fuel : Nat) (p : Path) :
    (t.makeDirectoriesFrom fuel p).1 = (t'.makeDirectoriesFrom fuel p).1 ∧
      (t.makeDirectoriesFrom fuel p).2.Alike (t'.makeDirectoriesFrom fuel p).2 := by
  induction fuel generalizing p with
  | zero => exact ⟨rfl, h⟩
  | succ fuel ih =>
    have made := h.makeDirectory p
    have above := ih { p with parts := p.parts.dropLast }
    unfold FileTree.makeDirectoriesFrom
    generalize t.makeDirectory p = result at made
    generalize t'.makeDirectory p = result' at made
    generalize t.makeDirectoriesFrom fuel { p with parts := p.parts.dropLast } = upper at above
    generalize t'.makeDirectoriesFrom fuel { p with parts := p.parts.dropLast } = upper' at above
    obtain ⟨fault?, u⟩ := upper
    obtain ⟨fault'?, u'⟩ := upper'
    obtain ⟨same, above⟩ := above
    dsimp only at same
    subst same
    cases made with
    | done alike => exact h.madeDirectory p (.done alike)
    | failed fault =>
      cases fault with
      | noEntry =>
        cases fault? with
        | none => exact above.madeDirectory p (above.makeDirectory p)
        | some => exact ⟨rfl, above⟩
      | _ => exact h.madeDirectory p (.failed _)

theorem read (h : t.Alike t') (p : Path) :
    (∃ fault, t.read p = .error fault ∧ t'.read p = .error fault) ∨
      ∃ place bytes bytes', t.locate p = .ok place ∧ t.read p = .ok bytes ∧
        t'.read p = .ok bytes' ∧ FileNode.Alike place (.file bytes) (.file bytes') := by
  unfold FileTree.read
  rw [← h.locate_eq]
  cases t.locate p with
  | error fault => exact .inl ⟨fault, rfl, rfl⟩
  | ok place =>
    have found := h.lookup place
    simp only [bind, Except.bind]
    generalize t.lookup? place = node? at found
    generalize t'.lookup? place = node'? at found
    cases found with
    | none => exact .inl ⟨_, rfl, rfl⟩
    | some alike =>
      cases alike with
      | texts last visible visible' texts =>
        exact .inr ⟨place, _, _, rfl, rfl, rfl, .texts last visible visible' texts⟩
      | same =>
        rename_i node
        cases node with
        | directory => exact .inl ⟨_, rfl, rfl⟩
        | file bytes => exact .inr ⟨place, bytes, bytes, rfl, rfl, rfl, .same _⟩

theorem write {bytes bytes' : ByteArray} (h : t.Alike t') (p : Path)
    (alike : ∀ place, t.locate p = .ok place → FileNode.Alike place (.file bytes) (.file bytes')) :
    SameEnd Alike (t.write p bytes) (t'.write p bytes') := by
  unfold FileTree.write
  rw [← h.locate_eq]
  cases located : t.locate p with
  | error fault => exact .failed fault
  | ok place =>
    have found := h.lookup place
    have put := h.insert (alike place located)
    simp only [bind, Except.bind]
    generalize t.lookup? place = node? at found
    generalize t'.lookup? place = node'? at found
    cases found with
    | none => exact .done put
    | some alike =>
      cases alike with
      | texts => exact .done put
      | same =>
        rename_i node
        cases node with
        | directory => exact .failed _
        | file => exact .done put

end Alike

/-- A path whose last part does not go up names a place with that last part. -/
theorem getLast_of_locate {p place : Path} {name : String} (h : t.locate p = .ok place)
    (last : p.parts.getLast? = some name) (down : name ≠ "..") :
    place.parts.getLast? = some name := by
  unfold locate at h
  simp only [last, bind, Except.bind] at h
  split at h
  · cases h
  · split at h
    · cases h
    · split at h
      · cases h
      · cases h
        simp [child]

end FileTree

namespace FileMedium

structure Alike (m m' : FileMedium) : Prop where
  directory : m.directory = m'.directory
  tree : m.tree.Alike m'.tree

def EndsAlike (r r' : Option MediumFault × FileMedium) : Prop :=
  r.1 = r'.1 ∧ r.2.Alike r'.2

variable {m m' : FileMedium} {c : Collection} {text text' : String}

theorem ofText_fileName (c : Collection) : Path.ofText (c.key ++ ".json") = ⟨.relative, [c.fileName]⟩ := by
  cases c <;> decide

theorem getLast_pathOf (m : FileMedium) (c : Collection) :
    (m.pathOf c.key).parts.getLast? = some c.fileName := by
  simp [pathOf, ofText_fileName, Path.append]

theorem fileName_down (c : Collection) : c.fileName ≠ ".." := by
  cases c <;> decide

/-- A collection's file stands at a place of its name. -/
theorem getLast_of_locate {t : FileTree} {place : Path}
    (h : t.locate (m.pathOf c.key) = .ok place) : place.parts.getLast? = some c.fileName :=
  FileTree.getLast_of_locate h (m.getLast_pathOf c) (fileName_down c)

namespace Alike

theorem pathOf_eq (h : m.Alike m') (key : String) : m.pathOf key = m'.pathOf key := by
  simp only [pathOf, h.directory]

theorem reads (h : m.Alike m') (c : Collection) : ReadsAlike c (m.read c.key) (m'.read c.key) := by
  unfold FileMedium.read
  dsimp only
  rw [← h.pathOf_eq]
  split
  · exact .failed _
  · rcases h.tree.read (m.pathOf c.key) with
      ⟨fault, failed, failed'⟩ | ⟨place, bytes, bytes', located, read, read', alike⟩
    · rw [failed, failed']
      cases fault with
      | noEntry => exact .done .none
      | _ => exact .failed _
    · rw [read, read']
      cases alike with
      | same =>
        dsimp only
        split
        · exact .done (.some (.refl _ _))
        · exact .failed _
      | @texts c' text text' last visible visible' texts =>
        -- The file has the name of one collection, and no two collections share a name.
        have own : c' = c := by
          rw [getLast_of_locate located] at last
          exact (Collection.fileName_injective (Option.some.inj last)).symm
        subst own
        simp only [Text.ofUtf8_toUTF8, unifyLines_of_visible visible, unifyLines_of_visible visible',
          String.ofList_toList]
        exact .done (.some texts)

theorem writes (h : m.Alike m') (visible : Json.AllVisible text.toList)
    (visible' : Json.AllVisible text'.toList) (texts : TextsAlike c text text') :
    EndsAlike (m.write c.key text) (m'.write c.key text') := by
  obtain ⟨directory, tree⟩ := m
  obtain ⟨directory', tree'⟩ := m'
  obtain ⟨same, alike⟩ := h
  dsimp only at same alike
  subst same
  have made := alike.makeDirectoriesFrom (directory.parts.length + 1) directory
  unfold FileMedium.write FileTree.makeDirectories
  simp only [pathOf, temporaryPath]
  split
  · exact ⟨rfl, rfl, alike⟩
  · generalize tree.makeDirectoriesFrom _ directory = upper at made
    generalize tree'.makeDirectoriesFrom _ directory = upper' at made
    obtain ⟨fault?, t⟩ := upper
    obtain ⟨fault'?, t'⟩ := upper'
    obtain ⟨same, alike⟩ := made
    dsimp only at same alike
    subst same
    cases fault? with
    | some => exact ⟨rfl, rfl, alike⟩
    | none =>
      have put := alike.write ((⟨directory, t⟩ : FileMedium).pathOf c.key) fun place located =>
        FileNode.Alike.texts (getLast_of_locate located) visible visible' texts
      simp only [pathOf] at put
      simp only [← alike.locate_eq]
      by_cases zero : hasZero { directory with
        parts := directory.parts ++ (Path.ofText ("." ++ c.key ++ ".????????.tmp")).parts } = true
      · simp only [zero, if_true]
        exact ⟨rfl, rfl, alike⟩
      · simp only [zero, if_false, Bool.false_eq_true]
        generalize t.locate { directory with parts := directory.parts ++ _ } = free
        cases free with
        | error => exact ⟨rfl, rfl, alike⟩
        | ok =>
          dsimp only
          generalize t.write _ _ = result at put
          generalize t'.write _ _ = result' at put
          cases put with
          | failed => exact ⟨rfl, rfl, alike⟩
          | done alike => exact ⟨rfl, rfl, alike⟩

end Alike

instance : DiscreetMedium FileMedium where
  Alike := Alike
  refl m := ⟨rfl, rfl, fun place => by cases m.tree.nodes[place]? with
    | none => exact .none
    | some node => exact .some (.same node)⟩
  reads h := h.reads
  writes {m m' c text text'} h visible visible' texts := by
    obtain ⟨ended, alike⟩ := h.writes visible visible' texts
    have notes : m.notes c.key text = m'.notes c.key text' := by
      simp only [FileMedium.notes, ended, writtenNote, h.pathOf_eq, texts.length]
    exact ⟨ended, alike, notes⟩

end FileMedium

end ControlPanel
