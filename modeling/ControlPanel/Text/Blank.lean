/-!
# Blanks, words and trimming

A blank is a space of any script, a line or paragraph break, or one of the ASCII separators and
controls that count as space. Lines are cut into words at runs of blanks, and trimmed of them.
-/
namespace ControlPanel.Text

def isAsciiSpace (c : Char) : Bool :=
  c.toNat == 32 || (9 ≤ c.toNat && c.toNat ≤ 13)

/-- Spaces and line breaks of all scripts; the information separators U+001C to U+001F are not among them. -/
def isSpace (c : Char) : Bool :=
  let code := c.toNat
  (9 ≤ code && code ≤ 13) || code == 32 || code == 0x85 || code == 0xA0 || code == 0x1680 ||
    (0x2000 ≤ code && code ≤ 0x200A) || code == 0x2028 || code == 0x2029 || code == 0x202F ||
    code == 0x205F || code == 0x3000

/-- Spaces and line breaks of all scripts, and the information separators. -/
def isBlank (c : Char) : Bool :=
  isSpace c || (28 ≤ c.toNat && c.toNat ≤ 31)

def trimOf {α : Type} (p : α → Bool) (items : List α) : List α :=
  ((items.dropWhile p).reverse.dropWhile p).reverse

def isSpaceByte (b : UInt8) : Bool :=
  isAsciiSpace (Char.ofNat b.toNat)

def trimBytes (bytes : List UInt8) : List UInt8 :=
  trimOf isSpaceByte bytes

def trim (s : String) : String :=
  String.ofList (trimOf isBlank s.toList)

def wordsOf (cs : List Char) : List (List Char) :=
  (cs.splitOnP isBlank).filter fun word => !word.isEmpty

def words (s : String) : List String :=
  (wordsOf s.toList).map String.ofList

def isBlankText (s : String) : Bool :=
  s.toList.all isBlank

end ControlPanel.Text
