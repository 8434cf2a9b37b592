import ControlPanel.Console.Basic
import Std.Time.DateTime.Timestamp

/-!
# The console program

The console on the files of a machine. Here the environment, the time, random identifiers and the
stored files come in, and replies, log lines and changed files go out.
-/
namespace ControlPanel.Console

def readVariables : List String → IO (List (String × String))
  | [] => return []
  | name :: rest => do
    let value? ← IO.getEnv name
    let others ← readVariables rest
    return (value?.map fun value => (name, value)).toList ++ others

def readSystem : IO String := do
  try return Text.lower (Text.trim (← IO.FS.readFile "/proc/sys/kernel/ostype"))
  catch _ => return "unknown"

def readUsers : IO (List (String × String)) := do
  try
    let lines := (← IO.FS.readFile "/etc/passwd").splitOn "\n"
    return lines.filterMap fun line =>
      match line.splitOn ":" with
      | [name, _, _, _, _, home, _] => some (name, home)
      | _ => none
  catch _ => return []

def readEnvironment : IO Environment := do
  let home : Homes := ⟨(← IO.getEnv "HOME").getD "/", ← readUsers⟩
  return ⟨← readVariables Settings.variableNames, home, ← readSystem⟩

def readClock : IO (Option ClockTime) := do
  let micros := (← Std.Time.Timestamp.now).toNanosecondsSinceUnixEpoch.val / 1000
  return ClockTime.ofMicros? micros

/-- The time now, and identifiers that count up from a random one. -/
def readSupplies : IO Supplies := do
  let now? ← readClock
  let seed := (← IO.getRandomBytes 8).foldl (fun n b => 256 * n + b.toNat) 0
  return ⟨.ofFunction fun n => .text (String.ofList (Text.hexDigits 16 (seed + n))),
    .ofFunction fun _ => now?⟩

def directoryTree (directory : Path) : FileTree :=
  (List.range directory.parts.length).foldl (fun tree n =>
    tree.insert { directory with parts := directory.parts.take (n + 1) } .directory) .empty

def readTree (directory : Path) : List Collection → IO FileTree
  | [] => return directoryTree directory
  | c :: rest => do
    let tree ← readTree directory rest
    let path := (FileMedium.mk directory tree).pathOf c.key
    try return tree.insert path (.file (← IO.FS.readBinFile path.text))
    catch _ => return tree

/-- Writes a file in one step. -/
def replaceFile (directory path : Path) (bytes : ByteArray) : IO Unit := do
  let temporary := path.text ++ ".tmp"
  IO.FS.createDirAll directory.text
  IO.FS.writeBinFile temporary bytes
  IO.FS.rename temporary path.text

def holds (tree : FileTree) (path : Path) (bytes : ByteArray) : Bool :=
  match tree.lookup? path with
  | some (.file old) => old.data == bytes.data
  | _ => false

def writeChanges (before : FileTree) (m : FileMedium) : IO Unit := do
  for c in Collection.all do
    let path := m.pathOf c.key
    if let some (.file bytes) := m.tree.lookup? path then
      unless holds before path bytes do
        try replaceFile m.directory path bytes
        catch fault => IO.eprintln fault.toString

namespace Session

def refresh (s : Session) : IO Session := do
  return { s with engine := { s.engine with supplies := ← readSupplies } }

def publish (s : Session) (verbose : Bool) (before : FileTree) : IO Session := do
  let engine := s.engine.flush
  IO.print s.text
  (← IO.getStdout).flush
  for note in engine.writer.journal.reverse do
    if verbose || note.level = .warning then IO.eprintln note.text
  writeChanges before engine.writer.medium
  return { s with engine := { engine with writer := { engine.writer with journal := [] } }, output := [] }

def tree (s : Session) : FileTree :=
  s.engine.writer.medium.tree

partial def converse (o : Options) (before : FileTree) (s : Session) :
    IO (Except Failure Unit × Session) := do
  let s ← (s.print prompt).publish o.verbose before
  let line ← (← IO.getStdin).getLine
  if line.isEmpty then return (.ok (), s.endInput)
  match (← s.refresh).takeLine o.json line with
  | (.ok true, next) => converse o s.tree next
  | (.ok false, next) => return (.ok (), next)
  | (.error failure, next) => return (.error failure, next)

end Session

def reportFault (fault : Fault) : IO UInt32 := do
  IO.eprintln fault.message
  return 1

def runEngine (o : Options) (tree : FileTree) (e : Engine FileMedium) : IO UInt32 := do
  match begin o e with
  | (.error fault, _) => reportFault (.engine fault)
  | (.ok (), s) =>
    let (result, last) ← if o.converses then s.converse o tree else pure (work o "" s)
    let _ ← last.close.publish o.verbose tree
    match result with
    | .ok () => return last.status.toUInt32
    | .error failure => reportFault (.engine (.failed failure))

def runOnFiles (o : Options) : IO UInt32 := do
  match settings (← readEnvironment) o with
  | .error fault => reportFault fault
  | .ok settings =>
    let tree ← readTree (Path.ofText settings.storageDir) Collection.all
    match engineOf settings tree (← readSupplies) with
    | .error failure => reportFault (.engine (.failed failure))
    | .ok e => runEngine o tree e

end ControlPanel.Console

open ControlPanel.Console in
def main (arguments : List String) : IO UInt32 := do
  match Options.read arguments with
  | .run o => runOnFiles o
  | .help => do
    IO.print helpText
    return 0
  | .misuse => do
    IO.eprint helpText
    return usageStatus.toUInt32
