import ControlPanel.Text.Hex

/-!
# UTF-8

Texts are stored as UTF-8. Bytes that are none are described by the first place where they fail:
the bytes of the character that was begun there, and why it cannot go on.
-/
namespace ControlPanel.Text

namespace Utf8

inductive Reason where
  | start
  | continuation
  | unexpectedEnd
  deriving DecidableEq, Repr

def Reason.text : Reason → String
  | .start => "invalid start byte"
  | .continuation => "invalid continuation byte"
  | .unexpectedEnd => "unexpected end of data"

structure Fault where
  position : Nat
  lead : Nat
  length : Nat
  reason : Reason
  deriving DecidableEq, Repr

/-- The number of continuation bytes after a lead byte, and the range of the first of them. -/
def leadShape? (lead : Nat) : Option (Nat × Nat × Nat) :=
  if lead < 0x80 then some (0, 0x80, 0xBF)
  else if lead < 0xC2 then none
  else if lead < 0xE0 then some (1, 0x80, 0xBF)
  else if lead = 0xE0 then some (2, 0xA0, 0xBF)
  else if lead = 0xED then some (2, 0x80, 0x9F)
  else if lead < 0xF0 then some (2, 0x80, 0xBF)
  else if lead = 0xF0 then some (3, 0x90, 0xBF)
  else if lead < 0xF4 then some (3, 0x80, 0xBF)
  else if lead = 0xF4 then some (3, 0x80, 0x8F)
  else none

def continuationFault? : Nat → Nat → Nat → List Nat → Option (Nat × Reason)
  | 0, _, _, _ => none
  | _ + 1, _, _, [] => some (0, .unexpectedEnd)
  | count + 1, low, high, b :: rest =>
    if low ≤ b ∧ b ≤ high then
      (continuationFault? count 0x80 0xBF rest).map fun (fit, reason) => (fit + 1, reason)
    else some (0, .continuation)

/-- The first failure in bytes that begin at a position; `skip` of them belong to a character already checked. -/
def faultFrom? : Nat → Nat → List Nat → Option Fault
  | _, _, [] => none
  | position, skip + 1, _ :: rest => faultFrom? (position + 1) skip rest
  | position, 0, lead :: rest =>
    match leadShape? lead with
    | none => some ⟨position, lead, 1, .start⟩
    | some (count, low, high) =>
      match continuationFault? count low high rest with
      | some (fit, reason) => some ⟨position, lead, fit + 1, reason⟩
      | none => faultFrom? (position + 1) count rest

def Fault.message (f : Fault) : String :=
  let place :=
    if f.length = 1 then
      "byte 0x" ++ String.ofList (hexDigits 2 f.lead) ++ " in position " ++ toString f.position
    else
      "bytes in position " ++ toString f.position ++ "-" ++ toString (f.position + f.length - 1)
  "'utf-8' codec can't decode " ++ place ++ ": " ++ f.reason.text

end Utf8

def ofUtf8? (bytes : ByteArray) : Except Utf8.Fault String :=
  match String.fromUTF8? bytes with
  | some s => .ok s
  | none =>
    .error ((Utf8.faultFrom? 0 0 (bytes.toList.map UInt8.toNat)).getD ⟨0, 0, 1, .start⟩)

theorem ofUtf8_toUTF8 (s : String) : ofUtf8? s.toUTF8 = .ok s := by
  have whole : String.fromUTF8? s.toUTF8 = some s := by
    simp only [String.fromUTF8?, String.toUTF8_eq_toByteArray, dif_pos s.isValidUTF8]
    rfl
  rw [ofUtf8?, whole]

/-- Ends lines by line feeds: a carriage return counts as one, alone or with the line feed after it. -/
def unifyLines : List Char → List Char
  | [] => []
  | '\r' :: '\n' :: rest => '\n' :: unifyLines rest
  | c :: rest => (if c = '\r' then '\n' else c) :: unifyLines rest

end ControlPanel.Text
