import ControlPanel.Text.Digit

/-!
# Console options

Options may be shortened as long as they stay unambiguous. All commands stand together: once they
have been followed by an option, no more of them may come. After `--` everything is a command.
-/
namespace ControlPanel.Console

inductive Switch where
  | storage
  | email
  | noSeed
  | json
  | snapshot
  | verbose
  | help
  deriving DecidableEq, Repr

namespace Switch

def spellings : List (String × Switch) :=
  [("-h", help), ("--help", help), ("--storage", storage), ("--email", email),
    ("--no-seed", noSeed), ("--json", json), ("--snapshot", snapshot), ("-v", verbose),
    ("--verbose", verbose)]

def takesValue : Switch → Bool
  | .storage => true
  | .email => true
  | _ => false

end Switch

/-- What is attached to an option: a value after an equals sign, or the characters that follow a single letter,
also after an equals sign. -/
inductive Attachment where
  | nothing
  | value (text : String)
  | letters (text : String)
  deriving DecidableEq, Repr

def Attachment.text? : Attachment → Option String
  | .nothing => none
  | .value text => some text
  | .letters text => some text

inductive Argument where
  | plain (text : String)
  | mark
  | option (switch : Switch) (attachment : Attachment)
  | unknown
  | ambiguous
  deriving DecidableEq, Repr

namespace Argument

def dropLineFeed (cs : List Char) : List Char :=
  if cs.getLast? = some '\n' then cs.dropLast else cs

def isNegativeNumber (cs : List Char) : Bool :=
  match dropLineFeed cs with
  | '-' :: rest =>
    let isDigit (c : Char) : Bool := (Text.digitValue? c).isSome
    match rest.dropWhile isDigit with
    | [] => !rest.isEmpty
    | '.' :: fraction => !fraction.isEmpty && fraction.all isDigit
    | _ => false
  | _ => false

def splitValue (cs : List Char) : List Char × Attachment :=
  match cs.dropWhile (· ≠ '=') with
  | _ :: value => (cs.takeWhile (· ≠ '='), .value (String.ofList value))
  | [] => (cs, .nothing)

def longMatches (cs : List Char) : List Argument :=
  let (name, attachment) := splitValue cs
  (Switch.spellings.filter fun (spelling, _) => name.isPrefixOf spelling.toList).map
    fun (_, s) => .option s attachment

def shortMatches (cs : List Char) : List Argument :=
  (Switch.spellings.filter fun (spelling, _) => spelling.toList = cs.take 2).map
    fun (_, s) => .option s (.letters (String.ofList (cs.drop 2)))

def candidates (cs : List Char) : List Argument :=
  match cs with
  | '-' :: '-' :: _ => longMatches cs
  | _ => shortMatches cs

/-- What stands after the equals sign of an option: letters if it has one dash, otherwise a value. -/
def attach (name : List Char) : Attachment → Attachment
  | .value text => if name.length = 2 then .letters text else .value text
  | attachment => attachment

def spelledOut? (cs : List Char) : Option Argument :=
  match Switch.spellings.lookup (String.ofList cs) with
  | some s => some (.option s .nothing)
  | none =>
    let (name, attachment) := splitValue cs
    (Switch.spellings.lookup (String.ofList name)).map fun s => .option s (attach name attachment)

def classify (text : String) : Argument :=
  let cs := text.toList
  match cs with
  | '-' :: _ :: _ =>
    match spelledOut? cs with
    | some argument => argument
    | none =>
      match candidates cs with
      | [argument] => argument
      | [] => if isNegativeNumber cs || cs.contains ' ' then .plain text else .unknown
      | _ => .ambiguous
  | _ => .plain text

def classifyAll : List String → List Argument
  | [] => []
  | "--" :: rest => .mark :: rest.map .plain
  | text :: rest => classify text :: classifyAll rest

def takeCommands : List Argument → List String × List Argument
  | .plain text :: rest =>
    let (texts, rest) := takeCommands rest
    (text :: texts, rest)
  | .mark :: rest => takeCommands rest
  | rest => ([], rest)

end Argument

/-- What an option that takes a value is given: a text, or nothing if the mark alone stands for the value. -/
inductive Operand where
  | text (s : String)
  | nothing
  deriving DecidableEq, Repr

def Operand.ofText (s : String) : Operand :=
  if s = "--" then .nothing else .text s

structure Options where
  commands : List String
  storage? : Option Operand
  email? : Option Operand
  noSeed : Bool
  json : Bool
  snapshot : Bool
  verbose : Bool
  deriving DecidableEq, Repr

inductive Request where
  | run (o : Options)
  | help
  | misuse
  deriving DecidableEq, Repr

namespace Options

def converses (o : Options) : Bool :=
  !o.snapshot && o.commands.isEmpty

def empty : Options := ⟨[], none, none, false, false, false, false⟩

def turnOn (o : Options) : Switch → Options
  | .noSeed => { o with noSeed := true }
  | .json => { o with json := true }
  | .snapshot => { o with snapshot := true }
  | .verbose => { o with verbose := true }
  | _ => o

def setValue (o : Options) (value : String) : Switch → Options
  | .storage => { o with storage? := some (.ofText value) }
  | .email => { o with email? := some (.ofText value) }
  | _ => o

def letters? (cs : List Char) : Option (List Switch) :=
  cs.mapM fun c => Switch.spellings.lookup (String.ofList ['-', c])

/-- The options that an option without a value turns on, with the letters attached to it; `none` if a value or no
letter at all is attached. -/
def switches? (s : Switch) : Attachment → Option (List Switch)
  | .nothing => some [s]
  | .value _ => none
  | .letters text => if text.isEmpty then none else (letters? text.toList).map (s :: ·)

/-- Reads arguments one after the other. `placed` tells whether the commands have been read, and `surplus` whether
something has been met that nothing can be done with, which counts only if no help is asked for. `fuel` bounds the
number of arguments. -/
def readArguments (o : Options) (placed surplus : Bool) : Nat → List Argument → Request
  | 0, _ => .misuse
  | _ + 1, [] => if surplus then .misuse else .run o
  | fuel + 1, .option s attachment :: rest =>
    if s.takesValue then
      match attachment.text?, rest with
      | some text, rest => readArguments (o.setValue text s) placed surplus fuel rest
      | none, .plain value :: rest => readArguments (o.setValue value s) placed surplus fuel rest
      | none, _ => .misuse
    else
      match switches? s attachment with
      | none => .misuse
      | some switches =>
        if switches.contains .help then .help
        else readArguments (switches.foldl turnOn o) placed surplus fuel rest
  | fuel + 1, .unknown :: rest => readArguments o placed true fuel rest
  | _ + 1, .ambiguous :: _ => .misuse
  | fuel + 1, arguments =>
    let (texts, rest) := Argument.takeCommands arguments
    if placed then readArguments o true true fuel rest
    else readArguments { o with commands := texts } true surplus fuel rest

def read (arguments : List String) : Request :=
  let arguments := Argument.classifyAll arguments
  if arguments.contains .ambiguous then .misuse
  else readArguments empty false false (arguments.length + 1) arguments

end Options

end ControlPanel.Console
