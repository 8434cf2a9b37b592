import ControlPanel.Calendar.Reading

/-!
# Checked data

The outcome of reading data that may be wrong. All errors of all fields are gathered in order; a
fault ends the reading at once, the first one counting.
-/
namespace ControlPanel

inductive Segment where
  | key (name : String)
  | index (n : Nat)
  deriving DecidableEq, Repr

inductive Complaint where
  | missing
  | extra
  | invalid
  deriving DecidableEq, Repr

structure FieldError where
  path : List Segment
  complaint : Complaint
  deriving DecidableEq, Repr

inductive Checked (α : Type) where
  | ok (value : α)
  | invalid (errors : List FieldError)
  | fault (cause : InstantFault)
  deriving DecidableEq, Repr

namespace Checked

variable {α β : Type}

def map (f : α → β) : Checked α → Checked β
  | .ok a => .ok (f a)
  | .invalid errors => .invalid errors
  | .fault cause => .fault cause

/-- Both outcomes, the errors of the first before those of the second. -/
def and : Checked α → Checked β → Checked (α × β)
  | .ok a, .ok b => .ok (a, b)
  | .ok _, .invalid errors => .invalid errors
  | .invalid errors, .ok _ => .invalid errors
  | .invalid errors, .invalid more => .invalid (errors ++ more)
  | .fault cause, _ => .fault cause
  | _, .fault cause => .fault cause

def wrong : Checked α :=
  .invalid [⟨[], .invalid⟩]

def ofOption : Option α → Checked α
  | some a => .ok a
  | none => wrong

def value? : Checked α → Option α
  | .ok a => some a
  | _ => none

def errors : Checked α → List FieldError
  | .invalid errors => errors
  | _ => []

def within (segment : Segment) : Checked α → Checked α
  | .invalid errors => .invalid (errors.map fun e => { e with path := segment :: e.path })
  | outcome => outcome

def items (read : β → Checked α) (index : Nat) : List β → Checked (List α)
  | [] => .ok []
  | item :: rest =>
    (((read item).within (.index index)).and (items read (index + 1) rest)).map fun (a, as) => a :: as

@[simp]
theorem map_eq_ok {f : α → β} {c : Checked α} {b : β} :
    c.map f = .ok b ↔ ∃ a, c = .ok a ∧ f a = b := by
  cases c <;> simp [map]

@[simp]
theorem and_eq_ok {c : Checked α} {d : Checked β} {both : α × β} :
    c.and d = .ok both ↔ c = .ok both.1 ∧ d = .ok both.2 := by
  cases c <;> cases d <;> simp [and, Prod.ext_iff]

@[simp]
theorem within_eq_ok {segment : Segment} {c : Checked α} {a : α} :
    c.within segment = .ok a ↔ c = .ok a := by
  cases c <;> simp [within]

@[simp]
theorem ofOption_eq_ok {a? : Option α} {a : α} : ofOption a? = .ok a ↔ a? = some a := by
  cases a? <;> simp [ofOption, wrong]

end Checked

end ControlPanel
