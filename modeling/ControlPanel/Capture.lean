import ControlPanel.Store.Request

/-!
# Capture

Photos and locations that a host reports are recorded in the store. The accuracy of a location is
rounded to whole meters; an accuracy that is missing, negative or not finite counts as unknown.
-/
namespace ControlPanel.Capture

def roundAccuracy : Value → Except NumberFault Nat
  | .null => .ok 0
  | v => v.toReal.map fun x =>
    match x.roundInt? with
    | some n => if x.isNegative then 0 else n.toNat
    | none => 0

def photoNote (e : PhotoEntry) : Note :=
  .debug .capture ("Photo recorded id=" ++ e.id.text)

def locationNote (e : GpsEntry) : Note :=
  .debug .capture ("Location recorded id=" ++ e.id.text ++ " accuracy=" ++
    toString e.accuracy ++ "m")

def noting {α : Type} (o : Outcome α) (note : α → Note) : Outcome α :=
  match o.result with
  | .ok a => { o with notes := o.notes ++ [note a] }
  | .error _ => o

def photo (s : Store) (supplies : Supplies) (uri : Value) : Outcome PhotoEntry :=
  noting (s.requestPhoto supplies uri) photoNote

def location (s : Store) (supplies : Supplies) (lat lng accuracy : Value) : Outcome GpsEntry :=
  match roundAccuracy accuracy with
  | .error fault => .fail s supplies (.number fault)
  | .ok accuracy => noting (s.appendGps supplies lat lng (.int accuracy)) locationNote

structure Sample where
  lat : Value
  lng : Value
  accuracy : Value
  deriving BEq, Repr

inductive Sampling where
  | failed
  | nothing
  | sample (s : Sample)
  deriving BEq, Repr

def failedNote : Note := .warning .capture "Location sampler failed"

def rejectedNote (reason : Refusal) : Note :=
  .warning .capture ("Location sample rejected: " ++ reason.message)

/-- Takes one sample and records it, if there is one and it can be recorded. -/
def takeSample (s : Store) (supplies : Supplies) : Sampling → Outcome (Option GpsEntry)
  | .failed => { Outcome.unchanged s supplies none with notes := [failedNote] }
  | .nothing => .unchanged s supplies none
  | .sample sample =>
    let o := location s supplies sample.lat sample.lng sample.accuracy
    match o.result with
    | .error (.refused reason) =>
      ⟨.ok none, o.store, o.supplies, o.change?, o.notes ++ [rejectedNote reason]⟩
    | _ => o.map some

end ControlPanel.Capture
