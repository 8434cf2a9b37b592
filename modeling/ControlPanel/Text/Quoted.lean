import ControlPanel.Text.Hex
import ControlPanel.Text.Printable

/-!
# Quoted text

Texts and byte strings in messages stand in single quotes, or in double quotes when they hold a
single quote and no double quote. What cannot be shown is escaped by its code.
-/
namespace ControlPanel.Text

/-- The quote to use around characters of which `hasSingle` and `hasDouble` tell which quotes occur. -/
def quoteFor (hasSingle hasDouble : Bool) : Char :=
  if hasSingle && !hasDouble then '"' else '\''

def escapeControl? (quote c : Char) : Option (List Char) :=
  if c = quote ∨ c = '\\' then some ['\\', c]
  else if c = '\t' then some ['\\', 't']
  else if c = '\n' then some ['\\', 'n']
  else if c = '\r' then some ['\\', 'r']
  else none

def escapeCode (code : Nat) : List Char :=
  if code < 0x100 then '\\' :: 'x' :: hexDigits 2 code
  else if code < 0x10000 then '\\' :: 'u' :: hexDigits 4 code
  else '\\' :: 'U' :: hexDigits 8 code

def quotedChar (quote c : Char) : List Char :=
  match escapeControl? quote c with
  | some escaped => escaped
  | none => if isPrintable c then [c] else escapeCode c.toNat

def quote (s : String) : String :=
  let cs := s.toList
  let mark := quoteFor (cs.contains '\'') (cs.contains '"')
  String.ofList (mark :: (cs.flatMap (quotedChar mark) ++ [mark]))

def quotedByte (quote : Char) (b : UInt8) : List Char :=
  let code := b.toNat
  match escapeControl? quote (Char.ofNat code) with
  | some escaped => escaped
  | none => if 32 ≤ code ∧ code < 127 then [Char.ofNat code] else escapeCode code

def quoteBytes (bytes : List UInt8) : String :=
  let mark := quoteFor (bytes.contains 39) (bytes.contains 34)
  String.ofList ('b' :: mark :: (bytes.flatMap (quotedByte mark) ++ [mark]))

end ControlPanel.Text
