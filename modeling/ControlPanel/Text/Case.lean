import ControlPanel.Text.CaseTable

/-!
# Lower case and case folding

Lower case keeps one character per character, except for the dotted capital I and for the capital
sigma, whose form depends on its neighbours. Case folding is context free; two texts match without
regard to case when their foldings are equal.
-/
namespace ControlPanel.Text

/-- Whether the first character of `cs` that is not transparent is a cased letter. -/
def meetsCased (cs : List Char) : Bool :=
  match cs.dropWhile fun c => CodeRange.covers CaseTable.transparent c.toNat with
  | [] => false
  | c :: _ => CodeRange.covers CaseTable.cased c.toNat

/-- The lower-case form of one character between what stands before it, nearest first, and after it. -/
def lowerChar (before : List Char) (c : Char) (after : List Char) : List Char :=
  if c.toNat < 128 then [c.toLower]
  else if c.toNat = 0x130 then [Char.ofNat 0x69, Char.ofNat 0x307]
  else if c.toNat = 0x3A3 then
    if meetsCased before && !meetsCased after then [Char.ofNat 0x3C2] else [Char.ofNat 0x3C3]
  else [Char.ofNat (CodeShift.apply CaseTable.lower c.toNat)]

def lowerFrom (before : List Char) : List Char → List Char
  | [] => []
  | c :: after => lowerChar before c after ++ lowerFrom (c :: before) after

def lowerOf (cs : List Char) : List Char :=
  lowerFrom [] cs

def lower (s : String) : String :=
  String.ofList (lowerOf s.toList)

def lowerByte (b : UInt8) : UInt8 :=
  if 65 ≤ b && b ≤ 90 then b + 32 else b

def foldChar (c : Char) : List Char :=
  if c.toNat < 128 then [c.toLower]
  else match CaseTable.foldLong.lookup c.toNat with
    | some codes => codes.map Char.ofNat
    | none => [Char.ofNat (CodeShift.apply CaseTable.fold c.toNat)]

def fold (s : String) : String :=
  String.ofList (s.toList.flatMap foldChar)

end ControlPanel.Text
