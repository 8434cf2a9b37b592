import ControlPanel.Console.Options
import ControlPanel.Engine
import ControlPanel.FileMedium
import ControlPanel.Settings

/-!
# The console

The console runs the commands it is given, or reads them line by line from its input until that
ends or says so, and prints the reply to each. It fails when one of the commands is refused.
-/
namespace ControlPanel.Console

inductive Fault where
  | settings (fault : Settings.Fault)
  | noDirectory
  | engine (fault : EngineFault)

def Fault.message : Fault → String
  | .settings fault => fault.message
  | .noDirectory => "expected str, bytes or os.PathLike object, not list"
  | .engine fault => fault.message

/-- A console at work: its engine, what it has printed, and whether no command has been refused. -/
structure Session where
  engine : Engine FileMedium
  output : List String
  succeeded : Bool

structure Ending where
  result : Except Fault Nat
  output : String
  tree : FileTree

def prompt : String := "> "

def exitWords : List String := ["exit", "quit"]

def replyRecord (command : String) (r : Reply) : Value :=
  .record [("command", .text command), ("success", .bool r.success), ("message", .text r.message),
    ("payload", r.payload.toValue)]

def replyText (json : Bool) (command : String) (r : Reply) : String :=
  if json then Json.write (replyRecord command r) .spaced ++ "\n"
  else (if r.success then "" else "error: ") ++ r.message ++ "\n"

namespace Session

def print (s : Session) (text : String) : Session :=
  { s with output := text :: s.output }

def text (s : Session) : String :=
  String.join s.output.reverse

def run (s : Session) (json : Bool) (command shown : String) : Except Failure Unit × Session :=
  match s.engine.execute command with
  | (.error failure, engine) => (.error failure, { s with engine := engine })
  | (.ok reply, engine) =>
    (.ok (), { s with engine := engine, succeeded := s.succeeded && reply.success }.print
      (replyText json shown reply))

def runAll (json : Bool) : List String → Session → Except Failure Unit × Session
  | [], s => (.ok (), s)
  | command :: rest, s =>
    match s.run json command command with
    | (.ok (), s) => runAll json rest s
    | (.error failure, s) => (.error failure, s)

/-- Takes one line of input; the flag tells whether more may follow. -/
def takeLine (s : Session) (json : Bool) (line : String) : Except Failure Bool × Session :=
  let command := Text.trim line
  if exitWords.contains (Text.lower command) then (.ok false, s)
  else if command.isEmpty then (.ok true, s)
  else
    let (result, s) := s.run json line command
    (result.map fun _ => true, s)

def endInput (s : Session) : Session :=
  s.print "\n"

def readAll (json : Bool) : List String → Session → Except Failure Unit × Session
  | [], s => (.ok (), (s.print prompt).endInput)
  | line :: rest, s =>
    match (s.print prompt).takeLine json line with
    | (.ok true, s) => readAll json rest s
    | (.ok false, s) => (.ok (), s)
    | (.error failure, s) => (.error failure, s)

def status (s : Session) : Nat :=
  if s.succeeded then 0 else 1

def close (s : Session) : Session :=
  { s with engine := s.engine.close }

end Session

/-- The lines of a text; the end of the last one may be missing. -/
def linesOf (input : String) : List String :=
  let pieces := (input.toList.splitOn '\n').map String.ofList
  if pieces.getLast? = some "" then pieces.dropLast else pieces

def settings (env : Environment) (o : Options) : Except Fault Settings := do
  let overrides := if o.noSeed then [("seed_default_features", Value.bool false)] else []
  let settings ← (Settings.ofEnvironment env overrides).mapError .settings
  match o.storage? with
  | some (.text dir) => return { settings with storageDir := (Path.ofText dir).text }
  | some .nothing => throw .noDirectory
  | none => return settings

def engineOf (settings : Settings) (tree : FileTree) (supplies : Supplies) :
    Except Failure (Engine FileMedium) :=
  (Engine.create ⟨Path.ofText settings.storageDir, tree⟩ settings.platform settings.writeTimeout
    settings.seedDefaultFeatures.isTruthy supplies).1

def setEmail (o : Options) (e : Engine FileMedium) : Except Failure Unit × Engine FileMedium :=
  match o.email? with
  | some (.text address) =>
    let (result, e) := e.perform (.setEmailAddress (Text.trim address))
    (result.map fun _ => (), e)
  | some .nothing => (.error (.notTrimmable "list"), e)
  | none => (.ok (), e)

/-- A session on an engine that is started with the address that an option gives. If there is none in it, the engine is
closed again. -/
def begin (o : Options) (e : Engine FileMedium) : Except EngineFault Unit × Session :=
  match e.start with
  | (.error fault, e) => (.error (.unreadable fault), ⟨e, [], true⟩)
  | (.ok (), e) =>
    match setEmail o e with
    | (.error failure, e) => (.error (.failed failure), ⟨e.close, [], true⟩)
    | (.ok (), e) => (.ok (), ⟨e, [], true⟩)

def Session.printSnapshot (s : Session) : Except Failure Unit × Session :=
  match s.engine.snapshot with
  | (none, engine) => (.error .calendarEnded, { s with engine := engine })
  | (some snapshot, engine) =>
    (.ok (), { s with engine := engine }.print (Json.write snapshot.toValue .indented ++ "\n"))

def work (o : Options) (input : String) (s : Session) : Except Failure Unit × Session :=
  if o.snapshot then s.printSnapshot
  else if o.commands.isEmpty then s.readAll o.json (linesOf input)
  else s.runAll o.json o.commands

def ending (result : Except Fault Nat) (s : Session) : Ending :=
  ⟨result, s.text, s.engine.writer.medium.tree⟩

def finish : Except Failure Unit × Session → Ending
  | (.ok (), s) => ending (.ok s.status) s.close
  | (.error failure, s) => ending (.error (.engine (.failed failure))) s.close

def runWith (o : Options) (env : Environment) (tree : FileTree) (supplies : Supplies)
    (input : String) : Ending :=
  match settings env o with
  | .error fault => ⟨.error fault, "", tree⟩
  | .ok settings =>
    match engineOf settings tree supplies with
    | .error failure => ⟨.error (.engine (.failed failure)), "", tree⟩
    | .ok e =>
      match begin o e with
      | (.error fault, s) => ending (.error (.engine fault)) s
      | (.ok (), s) => finish (work o input s)

def usageStatus : Nat := 2

def helpText : String :=
  "usage: console [-h] [--storage STORAGE] [--email EMAIL] [--no-seed] [--json] [--snapshot] [-v]\n" ++
    "               [commands ...]\n"

def run (arguments : List String) (env : Environment) (tree : FileTree) (supplies : Supplies)
    (input : String) : Ending :=
  match Options.read arguments with
  | .misuse => ⟨.ok usageStatus, "", tree⟩
  | .help => ⟨.ok 0, helpText, tree⟩
  | .run o => runWith o env tree supplies input

end ControlPanel.Console
