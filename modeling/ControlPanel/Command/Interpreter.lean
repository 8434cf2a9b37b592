import ControlPanel.Command.Line
import ControlPanel.Command.Reply
import ControlPanel.Mail
import ControlPanel.Store.Operation

/-!
# The interpreter

A command is decided on a snapshot, which may be older than the store it then acts on. The decision
is a reply, or one operation together with the reply to its result; so a command commits at most
one change, and none if it is refused.
-/
namespace ControlPanel

/-- What a command comes to: a reply at once, or an operation whose result is put into the reply. The operation may
depend on the time. -/
inductive Plan where
  | reply (r : Reply)
  | operate (op : Operation) (respond : Produced → Reply)
  | operateAt (op : ClockTime → Operation) (respond : Produced → Reply)

namespace Interpreter

def helpText : String :=
  "\n".intercalate
    ["Available commands:",
      "  help - show this list",
      "  list - list all features",
      "  enable <id|name> - enable feature",
      "  disable <id|name> - disable feature",
      "  add <name> | <desc> | <category> - add feature",
      "  remove <id> - remove feature",
      "  status - system status",
      "  clear-logs - clear command logs",
      "  clear-gps - clear GPS logs",
      "  sync-email - queue data for email sync",
      "  version - app version"]

def versionText : String :=
  Mail.appName ++ " v" ++ Mail.appVersion ++ "\nLocal state and command core\n100% offline-capable"

def emptyMessage : String := "No command entered. Type 'help' for options."

def addUsage : String := "add <name> | <description> | <category>"

def respondFeature (message : Feature → String) : Produced → Reply
  | .feature f => .accept (message f) (.feature f)
  | _ => .accept ""

def planEnable (line : CommandLine) (s : Snapshot) (enable : Bool) : Except Refusal Plan :=
  let verb := if enable then Verb.enable else Verb.disable
  match line.firstArg? with
  | none => .error (.usage (verb.text ++ " <feature-id>"))
  | some ref =>
    match Feature.find? s.features ref line.text with
    | none => .error (.featureNotFound ref)
    | some f =>
      if f.enabled = enable then
        .ok (.reply (.accept (f.name ++ " is already " ++ verb.text ++ "d.") (.feature f)))
      else
        let action := if enable then "Enabled: " else "Disabled: "
        .ok (.operate (.setFeatureEnabled f.id.text enable)
          (respondFeature fun f => action ++ f.name))

def segments (text : String) : List String :=
  (text.toList.splitOn '|').map fun cs => Text.trim (String.ofList cs)

def planAdd (line : CommandLine) : Except Refusal Plan :=
  match segments line.text with
  | name :: description :: others =>
    if name.isEmpty || description.isEmpty then .error .blankFeature
    else
      let category := match others.head? with
        | some category => if category.isEmpty then Feature.defaultCategory else category
        | none => Feature.defaultCategory
      .ok (.operate (.addFeature name description category)
        (respondFeature fun f => "Feature added: " ++ f.name ++ " [" ++ f.category ++ "]"))
  | _ => .error (.usage addUsage)

def planRemove (line : CommandLine) (s : Snapshot) : Except Refusal Plan :=
  match line.firstArg? with
  | none => .error (.usage "remove <feature-id>")
  | some id =>
    match s.featureById? id with
    | none => .error (.featureNotFound id)
    | some f =>
      .ok (.operate (.removeFeature f.id.text) fun _ =>
        .accept ("Removed: " ++ f.name) (.feature f))

def status (platform : Value) (s : Snapshot) : Status :=
  ⟨s.enabledFeatures.length, s.features.length,
    if s.emailAddress.isEmpty then none else some s.emailAddress, platform, Mail.appVersion⟩

def platformText : Value → String
  | .text s => s
  | v => v.display

def statusText (s : Status) : String :=
  "System Status:\n  Features: " ++ toString s.enabled ++ "/" ++ toString s.total ++
    " active\n  Email: " ++ s.emailAddress?.getD "not configured" ++
    "\n  Platform: " ++ platformText s.platform ++ "\n  Version: " ++ s.version

def syncOperation (s : Snapshot) (now : ClockTime) : Operation :=
  let mail := Mail.syncRequest s now
  .enqueueEmail mail.subject mail.body

def planSync (s : Snapshot) : Except Refusal Plan :=
  if Text.isBlankText s.emailAddress then .error .noAddress
  else .ok (.operateAt (syncOperation s) fun
    | .email e => .accept ("Email queued for: " ++ s.emailAddress) (.email e)
    | _ => .accept "")

def plan (platform : Value) (line : CommandLine) (s : Snapshot) : Verb → Except Refusal Plan
  | .help => .ok (.reply (.accept helpText))
  | .list => .ok (.reply (.accept (Feature.listing s.features) (.features s.features)))
  | .enable => planEnable line s true
  | .disable => planEnable line s false
  | .add => planAdd line
  | .remove => planRemove line s
  | .status =>
    let status := status platform s
    .ok (.reply (.accept (statusText status) (.status status)))
  | .clearLogs => .ok (.operate .clearCommands fun _ => .accept "Command logs cleared.")
  | .clearGps => .ok (.operate .clearGps fun _ => .accept "GPS logs cleared.")
  | .syncEmail => planSync s
  | .version => .ok (.reply (.accept versionText))

def acceptNote (verb : Verb) : Note :=
  .debug .interpreter ("Command ok verb=" ++ verb.text)

def refuseNote (line : CommandLine) (reason : Refusal) : Note :=
  .debug .interpreter ("Command failed verb=" ++ line.verb ++ " error=" ++ reason.kind.name)

def refusal (line : CommandLine) (store : Store) (supplies : Supplies) (reason : Refusal) :
    Outcome Reply :=
  ⟨.ok (.refuse reason.message), store, supplies, none, [refuseNote line reason]⟩

def operate (line : CommandLine) (verb : Verb) (store : Store) (supplies : Supplies) (op : Operation)
    (respond : Produced → Reply) : Outcome Reply :=
  let o := store.perform supplies op
  match o.result with
  | .ok produced => ⟨.ok (respond produced), o.store, o.supplies, o.change?,
      o.notes ++ [acceptNote verb]⟩
  | .error (.refused reason) => ⟨.ok (.refuse reason.message), o.store, o.supplies, o.change?,
      o.notes ++ [refuseNote line reason]⟩
  | .error failure => ⟨.error failure, o.store, o.supplies, o.change?, o.notes⟩

def carryOut (line : CommandLine) (verb : Verb) (store : Store) (supplies : Supplies) :
    Plan → Outcome Reply
  | .reply r => ⟨.ok r, store, supplies, none, [acceptNote verb]⟩
  | .operate op respond => operate line verb store supplies op respond
  | .operateAt op respond =>
    match supplies.now with
    | (none, supplies) => .fail store supplies .calendarEnded
    | (some now, supplies) => operate line verb store supplies (op now) respond

/-- Interprets one line on a snapshot. Refusals become replies; other failures do not. -/
def interpret (platform : Value) (line : CommandLine) (s : Snapshot) (store : Store)
    (supplies : Supplies) : Outcome Reply :=
  if line.verb.isEmpty then .unchanged store supplies (.refuse emptyMessage)
  else
    match Verb.ofText? line.verb with
    | none => refusal line store supplies (.unknownCommand line.verb)
    | some verb =>
      match plan platform line s verb with
      | .error reason => refusal line store supplies reason
      | .ok plan => carryOut line verb store supplies plan

end Interpreter

end ControlPanel
