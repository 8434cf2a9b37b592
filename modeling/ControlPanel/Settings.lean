import ControlPanel.Number.Reading
import ControlPanel.Path
import ControlPanel.Text.Case
import ControlPanel.Value

/-!
# Settings

Settings come from variables of the environment and from overrides that a host gives by name; an
override wins over the variable of its setting. Durations must be positive.
-/
namespace ControlPanel

structure Homes where
  own : String
  users : List (String × String) := []

instance : Coe String Homes := ⟨fun own => { own }⟩

structure Environment where
  bindings : List (String × String)
  home : Homes
  system : String

namespace Environment

def get? (env : Environment) (name : String) : Option String :=
  env.bindings.lookup name

def filled? (env : Environment) (name : String) : Option String :=
  (env.get? name).filter fun s => !s.isEmpty

def homeOf? (env : Environment) (user : String) : Option Path :=
  (env.home.users.lookup user).map Path.ofText

end Environment

/-- The settings; those that a host gives are kept as they are given. -/
structure Settings where
  storageDir : String
  platform : Value
  writeTimeout : Value
  seedDefaultFeatures : Value
  trackingInterval : Value

namespace Settings

inductive Fault where
  | notANumber (variableName text : String)
  | notPositive (setting : String) (value : Value)
  | tooManyDigits
  | notComparable (kind : String)
  | unknownHome
  | unknownName (name : String)

def Fault.message : Fault → String
  | .notANumber variableName text => variableName ++ " must be a number, got " ++ Text.quote text
  | .notPositive setting value => setting ++ " must be positive, got " ++ value.display
  | .tooManyDigits =>
    "Exceeds the limit (" ++ toString digitLimit ++ " digits) for integer string conversion; " ++
      "use sys.set_int_max_str_digits() to increase the limit"
  | .notComparable kind => "'<=' not supported between instances of '" ++ kind ++ "' and 'int'"
  | .unknownHome => "Could not determine home directory."
  | .unknownName name => "unknown setting " ++ Text.quote name

def names : List String :=
  ["storage_dir", "platform", "write_timeout", "seed_default_features", "tracking_interval"]

def variableNames : List String :=
  ["RUBEL_STORAGE_DIR", "RUBEL_PLATFORM", "RUBEL_WRITE_TIMEOUT", "RUBEL_TRACKING_INTERVAL",
    "RUBEL_SEED_DEFAULT_FEATURES"]

def yesWords : List String := ["1", "true", "yes", "y", "on"]

def noWords : List String := ["0", "false", "no", "n", "off"]

def readBool (text? : Option String) (default : Bool) : Bool :=
  match text? with
  | none => default
  | some text =>
    let word := Text.lower (Text.trim text)
    if yesWords.contains word then true
    else if noWords.contains word then false
    else default

def readNumber (variableName text : String) : Except Fault Value :=
  match Binary64.readTyped? text with
  | some x => .ok (.real x)
  | none => .error (.notANumber variableName text)

def expand (env : Environment) (text : String) : Except Fault String :=
  match (Path.ofText text).expandHome? (Path.ofText env.home.own) env.homeOf? with
  | some path => .ok path.text
  | none => .error .unknownHome

def defaultStorageDir (env : Environment) : String :=
  ((Path.ofText env.home.own).append (Path.ofText ".rubel-engine")).text

/-- Whether a number is not positive; `nan` passes. -/
def isNotPositive : Value → Except Fault Bool
  | .int n => .ok (decide (n ≤ 0))
  | .real x => .ok (x.le .zero)
  | .bool b => .ok !b
  | v => .error (.notComparable v.kindName)

def isShowable : Value → Bool
  | .int n => decide (n.natAbs < Nat.pow 10 digitLimit)
  | _ => true

def checkPositive (setting : String) (v : Value) : Except Fault Unit := do
  if ← isNotPositive v then
    throw (if isShowable v then .notPositive setting v else .tooManyDigits)

def check (s : Settings) : Except Fault Settings := do
  checkPositive "write_timeout" s.writeTimeout
  checkPositive "tracking_interval" s.trackingInterval
  return s

def choose (overrides : List (String × Value)) (name : String) (other : Value) : Value :=
  (Value.lookup? overrides name).getD other

/-- A directory that a host names by something else than a text is kept in the form that messages show. -/
def chooseDir (overrides : List (String × Value)) (other : String) : String :=
  match Value.lookup? overrides "storage_dir" with
  | some (.text s) => s
  | some v => v.display
  | none => other

def checkNames (overrides : List (String × Value)) : Except Fault Unit :=
  match overrides.find? fun (name, _) => !names.contains name with
  | some (name, _) => .error (.unknownName name)
  | none => .ok ()

/-- A number variable, unless its setting is overridden. -/
def numberSetting (env : Environment) (overrides : List (String × Value))
    (setting variableName : String) (default : Value) : Except Fault Value :=
  match Value.lookup? overrides setting, env.get? variableName with
  | some v, _ => .ok v
  | none, some text => readNumber variableName text
  | none, none => .ok default

def ofOverrides (env : Environment) (overrides : List (String × Value)) : Except Fault Settings := do
  checkNames overrides
  check ⟨chooseDir overrides (defaultStorageDir env), choose overrides "platform" (.text env.system),
    choose overrides "write_timeout" (.real (.ofNat 5)),
    choose overrides "seed_default_features" (.bool true),
    choose overrides "tracking_interval" (.real (.ofNat 30))⟩

/-- The directory in the environment with its home expanded, also when it is overridden. -/
def environmentDir (env : Environment) : Except Fault String :=
  match env.filled? "RUBEL_STORAGE_DIR" with
  | some text => expand env text
  | none => .ok (defaultStorageDir env)

def overriddenDir (env : Environment) (overrides : List (String × Value)) (other : String) :
    Except Fault String :=
  match Value.lookup? overrides "storage_dir" with
  | some (.text s) => expand env s
  | _ => .ok (chooseDir overrides other)

def environmentPlatform (env : Environment) : String :=
  match env.filled? "RUBEL_PLATFORM" with
  | some text => Text.lower (Text.trim text)
  | none => env.system

def ofVariables (env : Environment) (overrides : List (String × Value)) (dir : String) :
    Except Fault Settings := do
  let timeout ← numberSetting env overrides "write_timeout" "RUBEL_WRITE_TIMEOUT" (.real (.ofNat 5))
  let interval ←
    numberSetting env overrides "tracking_interval" "RUBEL_TRACKING_INTERVAL" (.real (.ofNat 30))
  let seed := readBool (env.get? "RUBEL_SEED_DEFAULT_FEATURES") true
  let dir ← overriddenDir env overrides dir
  checkNames overrides
  check ⟨dir, choose overrides "platform" (.text (environmentPlatform env)), timeout,
    choose overrides "seed_default_features" (.bool seed), interval⟩

def ofEnvironment (env : Environment) (overrides : List (String × Value)) :
    Except Fault Settings := do
  ofVariables env overrides (← environmentDir env)

end Settings

end ControlPanel
