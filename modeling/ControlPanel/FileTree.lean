import Std.Data.HashMap
import ControlPanel.Path

/-!
# File trees

Files and directories by their places. A place is a path without dots; paths that name it may go up
by `..`, part by part, through directories that exist.
-/
namespace ControlPanel

inductive FileFault where
  | noEntry
  | occupied
  | notDirectory
  | isDirectory
  | nameTooLong
  deriving DecidableEq, Repr

namespace FileFault

def number : FileFault → Nat
  | .noEntry => 2
  | .occupied => 17
  | .notDirectory => 20
  | .isDirectory => 21
  | .nameTooLong => 36

def text : FileFault → String
  | .noEntry => "No such file or directory"
  | .occupied => "File exists"
  | .notDirectory => "Not a directory"
  | .isDirectory => "Is a directory"
  | .nameTooLong => "File name too long"

end FileFault

inductive FileNode where
  | directory
  | file (bytes : ByteArray)

/-- Nodes at their places, and the length in bytes of the longest path that can be followed. -/
structure FileTree where
  nodes : Std.HashMap Path FileNode
  pathLimit : Nat

namespace FileTree

def nameLimit : Nat := 255

def empty : FileTree := ⟨∅, 4095⟩

def lookup? (t : FileTree) (place : Path) : Option FileNode :=
  if place.parts.isEmpty then some .directory else t.nodes[place]?

def insert (t : FileTree) (place : Path) (node : FileNode) : FileTree :=
  { t with nodes := t.nodes.insert place node }

def child (place : Path) (name : String) : Path :=
  { place with parts := place.parts ++ [name] }

def descend (t : FileTree) (place : Path) (part : String) : Except FileFault Path :=
  if nameLimit < part.utf8ByteSize then .error .nameTooLong
  else if part = ".." then .ok { place with parts := place.parts.dropLast }
  else
    match t.lookup? (child place part) with
    | some .directory => .ok (child place part)
    | some (.file _) => .error .notDirectory
    | none => .error .noEntry

def checkLength (t : FileTree) (p : Path) : Except FileFault Unit :=
  if t.pathLimit < p.text.utf8ByteSize then .error .nameTooLong else .ok ()

/-- The place of the directory that a path names. -/
def resolve (t : FileTree) (p : Path) : Except FileFault Path := do
  t.checkLength p
  p.parts.foldlM t.descend { p with parts := [] }

/-- The place that a path names, which may be free, in a directory that exists. -/
def locate (t : FileTree) (p : Path) : Except FileFault Path := do
  t.checkLength p
  match p.parts.getLast? with
  | none => return p
  | some name =>
    let parent ← t.resolve { p with parts := p.parts.dropLast }
    if nameLimit < name.utf8ByteSize then throw .nameTooLong
    else if name = ".." then return { parent with parts := parent.parts.dropLast }
    else return child parent name

def isDirectory (t : FileTree) (p : Path) : Bool :=
  match t.resolve p with
  | .ok _ => true
  | .error _ => false

def read (t : FileTree) (p : Path) : Except FileFault ByteArray := do
  let place ← t.locate p
  match t.lookup? place with
  | some (.file bytes) => return bytes
  | some .directory => throw .isDirectory
  | none => throw .noEntry

def write (t : FileTree) (p : Path) (bytes : ByteArray) : Except FileFault FileTree := do
  let place ← t.locate p
  match t.lookup? place with
  | some .directory => throw .isDirectory
  | _ => return t.insert place (.file bytes)

def makeDirectory (t : FileTree) (p : Path) : Except FileFault FileTree := do
  let place ← t.locate p
  match t.lookup? place with
  | some _ => throw .occupied
  | none => return t.insert place .directory

/-- What has come of making one directory; one that is there already will do. The fault comes with its path. -/
def madeDirectory (t : FileTree) (p : Path) :
    Except FileFault FileTree → Option (FileFault × Path) × FileTree
  | .ok made => (none, made)
  | .error fault => (if t.isDirectory p then none else some (fault, p), t)

/-- Makes a directory and those above it that are missing, `fuel` of them at most. Those that were made before a
fault remain. -/
def makeDirectoriesFrom (t : FileTree) : Nat → Path → Option (FileFault × Path) × FileTree
  | 0, p => (some (.noEntry, p), t)
  | fuel + 1, p =>
    match t.makeDirectory p with
    | .error .noEntry =>
      match makeDirectoriesFrom t fuel { p with parts := p.parts.dropLast } with
      | (none, t) => t.madeDirectory p (t.makeDirectory p)
      | failed => failed
    | result => t.madeDirectory p result

def makeDirectories (t : FileTree) (p : Path) : Option (FileFault × Path) × FileTree :=
  t.makeDirectoriesFrom (p.parts.length + 1) p

def below (t : FileTree) (place : Path) : List (Path × FileNode) :=
  t.nodes.toList.filterMap fun (other, node) =>
    if other.root = place.root ∧ place.parts.isPrefixOf other.parts ∧ other ≠ place then
      some (⟨.relative, other.parts.drop place.parts.length⟩, node)
    else none

end FileTree

end ControlPanel
