import ControlPanel.Log

/-!
# Durable media

A medium keeps one text for every key. Reading and writing may fail; a failed write may or may not
have changed the medium.
-/
namespace ControlPanel

/-- How a medium fails: it was too slow, it says itself what went wrong, or anything else. -/
inductive MediumFault where
  | timedOut (text : String)
  | known (message : String)
  | other (text : String)
  deriving DecidableEq, Repr

def MediumFault.text : MediumFault → String
  | .timedOut text => text
  | .known message => message
  | .other text => text

class Medium (μ : Type) where
  read : μ → String → Except MediumFault (Option String)
  write : μ → String → String → Option MediumFault × μ
  /-- The lines that a write logs. -/
  notes : μ → String → String → List Note := fun _ _ _ => []

/-- A medium in memory, some of whose reads and all of whose writes may be made to fail. -/
structure MemoryMedium where
  entries : List (String × String)
  readFaults : List (String × MediumFault)
  writeFault? : Option MediumFault
  deriving DecidableEq, Repr

namespace MemoryMedium

def empty : MemoryMedium := ⟨[], [], none⟩

def ofEntries (entries : List (String × String)) : MemoryMedium :=
  { empty with entries := entries }

def get? (m : MemoryMedium) (key : String) : Option String :=
  m.entries.lookup key

def insert (key text : String) : List (String × String) → List (String × String)
  | [] => [(key, text)]
  | (other, old) :: rest =>
    if other = key then (key, text) :: rest else (other, old) :: insert key text rest

def put (m : MemoryMedium) (key text : String) : MemoryMedium :=
  { m with entries := insert key text m.entries }

instance : Medium MemoryMedium where
  read m key :=
    match m.readFaults.lookup key with
    | some fault => .error fault
    | none => .ok (m.get? key)
  write m key text :=
    match m.writeFault? with
    | some fault => (some fault, m)
    | none => (none, m.put key text)

end MemoryMedium

end ControlPanel
