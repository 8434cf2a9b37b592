import ControlPanel.FileTree
import ControlPanel.Medium
import ControlPanel.Text.Quoted
import ControlPanel.Text.Utf8

/-!
# Files as a medium

Every key has a file of its own in one directory. A text is first written to a temporary file
beside it, which then takes the place of the old one. Reading ends all lines by line feeds.
-/
namespace ControlPanel

structure FileMedium where
  directory : Path
  tree : FileTree

namespace FileMedium

def pathOf (m : FileMedium) (key : String) : Path :=
  m.directory.append (Path.ofText (key ++ ".json"))

/-- The temporary file for a key; eight characters of its name are picked at random. -/
def temporaryPath (m : FileMedium) (key : String) : Path :=
  { m.directory with
    parts := m.directory.parts ++ (Path.ofText ("." ++ key ++ ".????????.tmp")).parts }

def temporaryText : String := "'<tmp>'"

def faultText (fault : FileFault) (place : String) : String :=
  "[Errno " ++ toString fault.number ++ "] " ++ fault.text ++ ": " ++ place

def readFault (path : Path) (text : String) : MediumFault :=
  .known ("Could not read " ++ path.text ++ ": " ++ text)

def writeFault (path : Path) (text : String) : MediumFault :=
  .known ("Could not write " ++ path.text ++ ": " ++ text)

def zeroFault : MediumFault := .other "embedded null byte"

def hasZero (p : Path) : Bool :=
  p.parts.any fun part => part.toList.any (·.toNat = 0)

def read (m : FileMedium) (key : String) : Except MediumFault (Option String) :=
  let path := m.pathOf key
  if hasZero path then .error zeroFault
  else
    match m.tree.read path with
    | .error .noEntry => .ok none
    | .error fault => .error (readFault path (faultText fault (Text.quote path.text)))
    | .ok bytes =>
      match Text.ofUtf8? bytes with
      | .ok s => .ok (some (String.ofList (Text.unifyLines s.toList)))
      | .error fault => .error (readFault path fault.message)

/-- Makes the directory if need be, writes the temporary file and lets it take its place. -/
def write (m : FileMedium) (key text : String) : Option MediumFault × FileMedium :=
  let path := m.pathOf key
  if hasZero m.directory then (some zeroFault, m)
  else
    let (fault?, tree) := m.tree.makeDirectories m.directory
    let m := { m with tree := tree }
    match fault? with
    | some (fault, place) =>
      (some (writeFault path (faultText fault (Text.quote place.text))), m)
    | none =>
      if hasZero (m.temporaryPath key) then (some zeroFault, m)
      else
        match m.tree.locate (m.temporaryPath key) with
        | .error fault => (some (writeFault path (faultText fault temporaryText)), m)
        | .ok _ =>
          match m.tree.write path text.toUTF8 with
          | .error fault =>
            (some (writeFault path
              (faultText fault (temporaryText ++ " -> " ++ Text.quote path.text))), m)
          | .ok tree => (none, { m with tree := tree })

def writtenNote (path : Path) (text : String) : Note :=
  .debug .storage ("Wrote " ++ toString text.length ++ " chars to " ++ path.text)

def notes (m : FileMedium) (key text : String) : List Note :=
  match (m.write key text).1 with
  | none => [writtenNote (m.pathOf key) text]
  | some _ => []

instance : Medium FileMedium where
  read := read
  write := write
  notes := notes

end FileMedium

end ControlPanel
