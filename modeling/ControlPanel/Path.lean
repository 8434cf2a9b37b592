/-!
# Paths

A path is a root and a list of parts. Empty parts and single dots are dropped; two leading slashes
make a root of their own, three or more count as one.
-/
namespace ControlPanel

inductive Root where
  | relative
  | single
  | double
  deriving DecidableEq, Hashable, Repr

def Root.text : Root → String
  | .relative => ""
  | .single => "/"
  | .double => "//"

structure Path where
  root : Root
  parts : List String
  deriving DecidableEq, Hashable, Repr

namespace Path

def rootOf : List Char → Root
  | '/' :: '/' :: '/' :: _ => .single
  | '/' :: '/' :: _ => .double
  | '/' :: _ => .single
  | _ => .relative

def partsOf (cs : List Char) : List String :=
  ((cs.splitOn '/').filter fun part => !part.isEmpty && part ≠ ['.']).map String.ofList

def ofText (s : String) : Path :=
  ⟨rootOf s.toList, partsOf s.toList⟩

def text (p : Path) : String :=
  if p.parts.isEmpty && p.root = .relative then "."
  else p.root.text ++ "/".intercalate p.parts

/-- Puts a path below another; a path with a root stands alone. -/
def append (p q : Path) : Path :=
  match q.root with
  | .relative => { p with parts := p.parts ++ q.parts }
  | _ => q

/-- A path with a first part `~` replaced by the home directory, or with `~` and a name replaced by the home of
the user of that name, if there is one. -/
def expandHome? (p home : Path) (homeOf? : String → Option Path) : Option Path :=
  match p.root, p.parts with
  | .relative, first :: rest =>
    match first.toList with
    | ['~'] => some { home with parts := home.parts ++ rest }
    | '~' :: user =>
      (homeOf? (String.ofList user)).map fun home => { home with parts := home.parts ++ rest }
    | _ => some p
  | _, _ => some p

end Path

end ControlPanel
