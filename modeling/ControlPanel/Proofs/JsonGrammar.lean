import ControlPanel.Proofs.JsonText

/-!
# The grammar of JSON

A text of JSON, with all the freedom that there is in writing it: gaps between the parts, escapes in
strings, and the forms of numbers. The strict reader takes such a text for the value that it stands
for, and refuses it if it stands for none.
-/
namespace ControlPanel.Json

def answer {α : Type} (read? : Option α) (rest : List Char) : Except Fault (α × List Char) :=
  match read? with
  | some a => .ok (a, rest)
  | none => .error .malformed

structure Gap where
  chars : List Char
  blank : ∀ c ∈ chars, isSpace c = true

def Apart (rest : List Char) : Prop :=
  ∀ c ∈ rest.head?, c.isDigit = false ∧ c ≠ '.' ∧ c ≠ 'e' ∧ c ≠ 'E'

theorem Apart.nil : Apart [] := nofun

theorem Apart.mark {c : Char} (rest : List Char)
    (other : c.isDigit = false ∧ c ≠ '.' ∧ c ≠ 'e' ∧ c ≠ 'E') : Apart (c :: rest) := by
  rintro c' ⟨⟩
  exact other

theorem apart_of_isSpace {c : Char} (space : isSpace c = true) :
    c.isDigit = false ∧ c ≠ '.' ∧ c ≠ 'e' ∧ c ≠ 'E' := by
  simp only [isSpace, Bool.or_eq_true, decide_eq_true_eq] at space
  rcases space with ((rfl | rfl) | rfl) | rfl <;> decide

def Gap.empty : Gap := ⟨[], List.forall_mem_nil _⟩

theorem Gap.apart (gap : Gap) {rest : List Char} (h : Apart rest) : Apart (gap.chars ++ rest) := by
  obtain ⟨chars, blank⟩ := gap
  cases chars with
  | nil => exact h
  | cons c chars => exact .mark _ (apart_of_isSpace (blank c List.mem_cons_self))

theorem Gap.skipSpace_append (gap : Gap) (rest : List Char) :
    skipSpace (gap.chars ++ rest) = skipSpace rest :=
  List.dropWhile_append_of_pos gap.blank

/-- A character of a string: as it is, by its escape, or by its code. -/
inductive Glyph where
  | plain (c : Char) (visible : c ≠ '"' ∧ c ≠ '\\' ∧ 32 ≤ c.toNat)
  | escape (mark c : Char) (stands : simpleEscape? mark = some c)
  | code (digits : List Char) (n : Nat) (hex : hexQuad? digits = some (n, []))

namespace Glyph

def ofChar? (c : Char) : Option Glyph :=
  if visible : c ≠ '"' ∧ c ≠ '\\' ∧ 32 ≤ c.toNat then some (.plain c visible) else none

def spell (s : String) : List Glyph :=
  s.toList.filterMap ofChar?

def chars : Glyph → List Char
  | plain c _ => [c]
  | escape mark _ _ => ['\\', mark]
  | code digits _ _ => '\\' :: 'u' :: digits

/-- The characters that glyphs stand for. The halves of a surrogate pair stand for one together, and
for none apart. -/
def meaning? : List Glyph → Option (List Char)
  | [] => some []
  | .plain c _ :: rest => (meaning? rest).map (c :: ·)
  | .escape _ c _ :: rest => (meaning? rest).map (c :: ·)
  | .code _ high _ :: rest =>
    if isHighSurrogate high then
      match rest with
      | .code _ low _ :: rest =>
        if isLowSurrogate low then
          (meaning? rest).map
            (Char.ofNat (0x10000 + (high - 0xD800) * 0x400 + (low - 0xDC00)) :: ·)
        else none
      | _ => none
    else if isLowSurrogate high then none
    else (meaning? rest).map (Char.ofNat high :: ·)

end Glyph

theorem hexQuad_append {digits : List Char} {n : Nat} (hex : hexQuad? digits = some (n, []))
    (rest : List Char) : hexQuad? (digits ++ rest) = some (n, rest) := by
  unfold hexQuad? at hex
  split at hex
  · rename_i a b c d more
    split at hex
    · rename_i a' b' c' d' ha hb hc hd
      cases hex
      simp only [List.cons_append, List.nil_append, hexQuad?, ha, hb, hc, hd]
    · cases hex
  · cases hex

def closed (glyphs : List Glyph) (rest : List Char) : List Char :=
  glyphs.flatMap Glyph.chars ++ '"' :: rest

theorem closed_cons (glyph : Glyph) (glyphs : List Glyph) (rest : List Char) :
    closed (glyph :: glyphs) rest = glyph.chars ++ closed glyphs rest := by
  simp [closed]

theorem closed_append (glyphs : List Glyph) (a b : List Char) :
    closed glyphs a ++ b = closed glyphs (a ++ b) := by
  simp [closed]

theorem readChars_plain (fuel : Nat) (done rest : List Char) {c : Char}
    (visible : c ≠ '"' ∧ c ≠ '\\' ∧ 32 ≤ c.toNat) :
    readChars .strict (fuel + 1) done (c :: rest) = readChars .strict fuel (c :: done) rest := by
  obtain ⟨no_quote, no_escape, high⟩ := visible
  have low : ¬ c.toNat < 32 := Nat.not_lt.mpr high
  rw [readChars.eq_def]
  dsimp only
  split <;> simp_all

theorem readChars_simple (fuel : Nat) (done rest : List Char) {mark c : Char}
    (stands : simpleEscape? mark = some c) :
    readChars .strict (fuel + 1) done ('\\' :: mark :: rest) =
      readChars .strict fuel (c :: done) rest := by
  have no_code : mark ≠ 'u' := by
    rintro rfl
    cases stands
  rw [readChars.eq_def]
  dsimp only
  split
  · simp_all
  · simp_all
  · simp_all
  · simp_all
  · rename_i other same
    cases same
    exact absurd rfl (other mark rest rfl)

theorem lowHalf_code {digits : List Char} {low : Nat} (hex : hexQuad? digits = some (low, []))
    (rest : List Char) : lowHalf? ('\\' :: 'u' :: (digits ++ rest)) =
      if isLowSurrogate low then some (low, rest) else none := by
  simp only [lowHalf?, hexQuad_append hex rest]

theorem readUnicode_code {digits : List Char} {n : Nat} (hex : hexQuad? digits = some (n, []))
    (rest : List Char) (single : isHighSurrogate n = false) :
    readUnicode .strict (digits ++ rest) =
      if isLowSurrogate n then .error .malformed else .ok (Char.ofNat n, rest) := by
  simp only [readUnicode, hexQuad_append hex rest, single, Bool.false_eq_true, if_false,
    Dialect.loneSurrogate?]

theorem readUnicode_pair {digits more : List Char} {high low : Nat}
    (hex : hexQuad? digits = some (high, [])) (hex' : hexQuad? more = some (low, []))
    (rest : List Char) (front : isHighSurrogate high = true) :
    readUnicode .strict (digits ++ '\\' :: 'u' :: (more ++ rest)) =
      if isLowSurrogate low then
        .ok (Char.ofNat (0x10000 + (high - 0xD800) * 0x400 + (low - 0xDC00)), rest)
      else .error .malformed := by
  simp only [readUnicode, hexQuad_append hex, front, if_true, lowHalf_code hex',
    Dialect.loneSurrogate?]
  cases isLowSurrogate low <;> rfl

/-- What does not begin with a code is no other half. -/
theorem readUnicode_lone {digits rest : List Char} {high : Nat}
    (hex : hexQuad? digits = some (high, [])) (front : isHighSurrogate high = true)
    (lone : lowHalf? rest = none) : readUnicode .strict (digits ++ rest) = .error .malformed := by
  simp only [readUnicode, hexQuad_append hex, front, if_true, lone, Dialect.loneSurrogate?]

theorem closed_code_cons {digits : List Char} {n : Nat} (hex : hexQuad? digits = some (n, []))
    (glyphs : List Glyph) (rest : List Char) :
    closed (.code digits n hex :: glyphs) rest =
      '\\' :: 'u' :: (digits ++ closed glyphs rest) := by
  rw [closed_cons, Glyph.chars, List.cons_append, List.cons_append]

theorem readChars_code_cons {digits : List Char} {n : Nat} (hex : hexQuad? digits = some (n, []))
    (glyphs : List Glyph) (extra : Nat) (done rest : List Char) :
    readChars .strict (extra + (Glyph.code digits n hex :: glyphs).length + 1) done
        (closed (.code digits n hex :: glyphs) rest) =
      match readUnicode .strict (digits ++ closed glyphs rest) with
      | .ok (c, rest) => readChars .strict (extra + glyphs.length + 1) (c :: done) rest
      | .error fault => .error fault := by
  rw [closed_code_cons, List.length_cons, ← Nat.add_assoc]
  cases read : readUnicode .strict (digits ++ closed glyphs rest) with
  | error fault => simp only [readChars, read]
  | ok found => simp only [readChars, read]

theorem Glyph.meaning_pair {digits more : List Char} {high low : Nat}
    (hex : hexQuad? digits = some (high, [])) (hex' : hexQuad? more = some (low, []))
    (glyphs : List Glyph) (front : isHighSurrogate high = true) :
    meaning? (.code digits high hex :: .code more low hex' :: glyphs) =
      if isLowSurrogate low then
        (meaning? glyphs).map
          (Char.ofNat (0x10000 + (high - 0xD800) * 0x400 + (low - 0xDC00)) :: ·)
      else none := by
  rw [meaning?, if_pos front]

theorem Glyph.meaning_lone {digits : List Char} {high : Nat}
    (hex : hexQuad? digits = some (high, [])) {glyphs : List Glyph}
    (front : isHighSurrogate high = true)
    (other : ∀ more low hex' rest, glyphs ≠ .code more low hex' :: rest) :
    meaning? (.code digits high hex :: glyphs) = none := by
  rw [meaning?.eq_def]
  dsimp only
  rw [if_pos front]
  split
  · exact absurd rfl (other _ _ _ _)
  · rfl

theorem Glyph.meaning_single {digits : List Char} {n : Nat} (hex : hexQuad? digits = some (n, []))
    (glyphs : List Glyph) (single : isHighSurrogate n = false) :
    meaning? (.code digits n hex :: glyphs) =
      if isLowSurrogate n then none else (meaning? glyphs).map (Char.ofNat n :: ·) := by
  rw [meaning?.eq_def]
  dsimp only
  rw [single]
  rfl

/-- A glyph that is no code begins no other half. -/
theorem lowHalf_closed {glyphs : List Glyph} (rest : List Char)
    (other : ∀ digits low hex more, glyphs ≠ .code digits low hex :: more) :
    lowHalf? (closed glyphs rest) = none := by
  cases glyphs with
  | nil => rfl
  | cons glyph more =>
    cases glyph with
    | plain c visible =>
      have apart : c ≠ '\\' := visible.2.1
      rw [closed_cons]
      simp [Glyph.chars, lowHalf?, apart]
    | escape mark c stands =>
      have apart : mark ≠ 'u' := by
        rintro rfl
        cases stands
      rw [closed_cons]
      simp [Glyph.chars, lowHalf?, apart]
    | code digits low hex => exact absurd rfl (other digits low hex more)

/-- One more in front of what is still to be read, or behind what has been read. -/
theorem map_push {α : Type} (done : List α) (a : α) (others? : Option (List α)) :
    others?.map ((a :: done).reverse ++ ·) = (others?.map (a :: ·)).map (done.reverse ++ ·) := by
  cases others? with
  | none => rfl
  | some others => simp

/-- A string is read up to its quote. -/
theorem readChars_closed (glyphs : List Glyph) (extra : Nat) (done rest : List Char) :
    readChars .strict (extra + glyphs.length + 1) done (closed glyphs rest) =
      answer (((Glyph.meaning? glyphs).map (done.reverse ++ ·)).map String.ofList) rest := by
  induction glyphs using Glyph.meaning?.induct generalizing extra done with
  | case1 => simp [closed, readChars, Glyph.meaning?, answer]
  | case2 c visible glyphs ih =>
    rw [closed_cons, Glyph.chars, List.singleton_append, List.length_cons,
      readChars_plain _ _ _ visible]
    rw [← Nat.add_assoc, ih, map_push, Glyph.meaning?]
  | case3 mark c stands glyphs ih =>
    rw [closed_cons, Glyph.chars, List.cons_append, List.singleton_append, List.length_cons,
      readChars_simple _ _ _ stands]
    rw [← Nat.add_assoc, ih, map_push, Glyph.meaning?]
  | case4 digits high hex front more low hex' glyphs back ih =>
    have fuel : extra + (glyphs.length + 1) + 1 = extra + 1 + glyphs.length + 1 := by omega
    rw [readChars_code_cons, closed_code_cons, readUnicode_pair hex hex' _ front, if_pos back,
      Glyph.meaning_pair hex hex' glyphs front, if_pos back, List.length_cons]
    dsimp only
    rw [fuel, ih, map_push]
  | case5 digits high hex front more low hex' glyphs other =>
    rw [readChars_code_cons, closed_code_cons, readUnicode_pair hex hex' _ front, if_neg other,
      Glyph.meaning_pair hex hex' glyphs front, if_neg other]
    rfl
  | case6 digits high hex glyphs front other =>
    rw [readChars_code_cons, readUnicode_lone hex front (lowHalf_closed rest other),
      Glyph.meaning_lone hex front other]
    rfl
  | case7 digits low hex glyphs single back =>
    rw [Bool.not_eq_true] at single
    rw [readChars_code_cons, readUnicode_code hex _ single, if_pos back,
      Glyph.meaning_single hex glyphs single, if_pos back]
    rfl
  | case8 digits n hex glyphs single other ih =>
    rw [Bool.not_eq_true] at single
    rw [readChars_code_cons, readUnicode_code hex _ single, if_neg other,
      Glyph.meaning_single hex glyphs single, if_neg other]
    dsimp only
    rw [ih, map_push]

theorem length_le_closed (glyphs : List Glyph) (rest : List Char) :
    glyphs.length ≤ (closed glyphs rest).length := by
  induction glyphs with
  | nil => exact Nat.zero_le _
  | cons glyph glyphs ih =>
    have some_char : 1 ≤ glyph.chars.length := by cases glyph <;> simp [Glyph.chars]
    rw [closed_cons, List.length_append, List.length_cons]
    omega

/-- The fuel that strings are read with is enough. -/
theorem readChars_string (glyphs : List Glyph) (rest : List Char) :
    readChars .strict ((closed glyphs rest).length + 1) [] (closed glyphs rest) =
      answer ((Glyph.meaning? glyphs).map String.ofList) rest := by
  have enough : (closed glyphs rest).length =
      (closed glyphs rest).length - glyphs.length + glyphs.length :=
    (Nat.sub_add_cancel (length_le_closed glyphs rest)).symm
  rw [enough, readChars_closed]
  simp

structure Digits where
  chars : List Char
  nonempty : chars ≠ []
  digits : ∀ c ∈ chars, c.isDigit = true

structure Exponent where
  mark : Char
  marks : mark = 'e' ∨ mark = 'E'
  sign : List Char
  signs : sign = [] ∨ sign = ['+'] ∨ sign = ['-']
  digits : Digits

def Exponent.chars (e : Exponent) : List Char :=
  e.mark :: (e.sign ++ e.digits.chars)

def Exponent.value (e : Exponent) : Int :=
  if e.sign = ['-'] then -(digitsValue e.digits.chars : Int) else digitsValue e.digits.chars

structure Numeral where
  negative : Bool
  whole : Digits
  lead : whole.chars = ['0'] ∨ whole.chars.head? ≠ some '0'
  fraction : Option Digits
  exponent : Option Exponent

namespace Numeral

def fractionChars : Option Digits → List Char
  | none => []
  | some digits => '.' :: digits.chars

def exponentChars : Option Exponent → List Char
  | none => []
  | some e => e.chars

def unsigned (n : Numeral) : List Char :=
  n.whole.chars ++ (fractionChars n.fraction ++ exponentChars n.exponent)

def chars (n : Numeral) : List Char :=
  (if n.negative then ['-'] else []) ++ n.unsigned

def value? (n : Numeral) : Option Value :=
  if n.whole.chars.length ≤ digitLimit then
    some (numberValue n.negative n.whole.chars (n.fraction.map Digits.chars)
      (n.exponent.map Exponent.value))
  else none

end Numeral

theorem Apart.digits {rest : List Char} (h : Apart rest) : DigitsEnd rest :=
  fun c head => (h c head).1

theorem Digits.head (d : Digits) : ∃ c more, d.chars = c :: more ∧ c.isDigit := by
  obtain ⟨chars, nonempty, digits⟩ := d
  cases chars with
  | nil => exact absurd rfl nonempty
  | cons c more => exact ⟨c, more, rfl, digits c List.mem_cons_self⟩

theorem takeSign_append {sign cs : List Char} (signs : sign = [] ∨ sign = ['+'] ∨ sign = ['-'])
    (digits : ∃ c more, cs = c :: more ∧ c.isDigit) :
    takeSign (sign ++ cs) = (decide (sign = ['-']), cs) := by
  obtain ⟨c, more, rfl, digit⟩ := digits
  rcases signs with rfl | rfl | rfl
  · have no_sign : c ≠ '-' ∧ c ≠ '+' := by
      constructor <;> (rintro rfl; exact absurd digit (by decide))
    simp [takeSign, no_sign]
  · rfl
  · rfl

theorem takeExponent_apart {rest : List Char} (h : Apart rest) :
    takeExponent rest = (none, rest) := by
  cases rest with
  | nil => rfl
  | cons c rest =>
    obtain ⟨-, -, small, large⟩ := h c rfl
    simp [takeExponent, small, large]

theorem takeExponent_chars (e : Exponent) {rest : List Char} (h : DigitsEnd rest) :
    takeExponent (e.chars ++ rest) = (some e.value, rest) := by
  have sign : takeSign (e.sign ++ (e.digits.chars ++ rest)) =
      (decide (e.sign = ['-']), e.digits.chars ++ rest) := by
    obtain ⟨c, more, same, digit⟩ := e.digits.head
    exact takeSign_append e.signs ⟨c, more ++ rest, by rw [same, List.cons_append], digit⟩
  rw [Exponent.chars, List.cons_append, List.append_assoc]
  simp [takeExponent, sign, takeDigits_append e.digits.digits h, e.marks, e.digits.nonempty,
    Exponent.value]

theorem takeExponent_exponentChars (e? : Option Exponent) {rest : List Char} (h : Apart rest) :
    takeExponent (Numeral.exponentChars e? ++ rest) = (e?.map Exponent.value, rest) := by
  cases e? with
  | none => exact takeExponent_apart h
  | some e => exact takeExponent_chars e h.digits

theorem head_exponentChars (e? : Option Exponent) {rest : List Char} (h : Apart rest) :
    ∀ c ∈ (Numeral.exponentChars e? ++ rest).head?, c.isDigit = false ∧ c ≠ '.' := by
  intro c head
  cases e? with
  | none =>
    obtain ⟨no_digit, no_point, -⟩ := h c head
    exact ⟨no_digit, no_point⟩
  | some e =>
    cases head
    rcases e.marks with mark | mark <;> rw [mark] <;> decide

theorem takeFraction_fractionChars (f? : Option Digits) {rest : List Char}
    (h : ∀ c ∈ rest.head?, c.isDigit = false ∧ c ≠ '.') :
    takeFraction (Numeral.fractionChars f? ++ rest) = (f?.map Digits.chars, rest) := by
  cases f? with
  | none => exact takeFraction_none fun point => (h '.' point).2 rfl
  | some f => exact takeFraction_append f.nonempty f.digits fun c head => (h c head).1

theorem head_fractionChars (f? : Option Digits) {rest : List Char} (h : DigitsEnd rest) :
    DigitsEnd (Numeral.fractionChars f? ++ rest) := by
  cases f? with
  | none => exact h
  | some f => exact .cons _ rfl

theorem checkLength_strict (isWhole : Bool) (digits : Nat) :
    Dialect.strict.checkLength isWhole digits =
      if digits ≤ digitLimit then .ok () else .error .malformed := rfl

/-- A number is read to its end, unless it is too long. -/
theorem readNumber_numeral (n : Numeral) {rest : List Char} (h : Apart rest) :
    readNumber .strict n.negative (n.unsigned ++ rest) = answer n.value? rest := by
  have ends := head_exponentChars n.exponent h
  have fraction := takeFraction_fractionChars n.fraction ends
  have exponent := takeExponent_exponentChars n.exponent h
  have whole : DigitsEnd (Numeral.fractionChars n.fraction ++
      (Numeral.exponentChars n.exponent ++ rest)) :=
    head_fractionChars n.fraction fun c head => (ends c head).1
  rw [Numeral.unsigned, List.append_assoc, List.append_assoc,
    readNumber_checked .strict n.negative n.whole.digits n.lead n.whole.nonempty whole fraction
      exponent, checkLength_strict, Numeral.value?]
  split <;> rfl

structure Name where
  before : Gap
  glyphs : List Glyph
  mid : Gap
  after : Gap

namespace Name

def plain (s : String) : Name := ⟨.empty, Glyph.spell s, .empty, .empty⟩

def front (name : Name) (rest : List Char) : List Char :=
  name.before.chars ++
    '"' :: closed name.glyphs (name.mid.chars ++ ':' :: (name.after.chars ++ rest))

def text? (name : Name) : Option String :=
  (Glyph.meaning? name.glyphs).map String.ofList

end Name

/-- A value as it is written. -/
inductive Tree where
  | word (name : String) (v : Value) (known : (name, v) ∈ literals)
  | number (n : Numeral)
  | text (glyphs : List Glyph)
  | array (inner : Gap) (items : List (Gap × Tree × Gap))
  | object (inner : Gap) (members : List (Name × Tree × Gap))

theorem checkDepth_strict (bracket : Bracket) (isEmpty : Bool) (depth : Nat) :
    Dialect.strict.checkDepth bracket isEmpty (depth + 1) =
      if isEmpty || depth < Dialect.strict.depthLimit then .ok () else .error .malformed := by
  unfold Dialect.checkDepth
  by_cases near : depth + 1 ≤ Dialect.strict.depthLimit
  · rw [if_pos near, if_pos]
    simp [Nat.lt_of_succ_le near]
  · have far : ¬ depth < Dialect.strict.depthLimit := fun less => near (Nat.succ_le_of_lt less)
    simp only [near, far, if_false, decide_false, Bool.or_false]

theorem intercalate_front (first : List Char) (others : List (List Char)) (rest : List Char) :
    ∃ tail, [','].intercalate (first :: others) ++ rest = first ++ tail := by
  cases others with
  | nil => exact ⟨rest, by rw [List.intercalate_singleton]⟩
  | cons other others => exact ⟨_, intercalate_append first other others rest⟩

namespace Tree

mutual

def chars : Tree → List Char
  | .word name _ _ => name.toList
  | .number n => n.chars
  | .text glyphs => '"' :: closed glyphs []
  | .array inner items => '[' :: (inner.chars ++ ([','].intercalate (itemParts items) ++ [']']))
  | .object inner members =>
    '{' :: (inner.chars ++ ([','].intercalate (memberParts members) ++ ['}']))

def itemParts : List (Gap × Tree × Gap) → List (List Char)
  | [] => []
  | (before, item, after) :: rest =>
    (before.chars ++ (item.chars ++ after.chars)) :: itemParts rest

def memberParts : List (Name × Tree × Gap) → List (List Char)
  | [] => []
  | (name, value, after) :: rest => name.front (value.chars ++ after.chars) :: memberParts rest

end

mutual

/-- The value that is meant inside `depth` brackets. There is none if a number is too long, if half
of a surrogate pair stands alone, or if brackets that hold something are nested too deeply. -/
def value? (depth : Nat) : Tree → Option Value
  | .word _ v _ => some v
  | .number n => n.value?
  | .text glyphs => (Glyph.meaning? glyphs).map fun cs => .text (String.ofList cs)
  | .array _ items =>
    if items.isEmpty || depth < Dialect.strict.depthLimit then
      (itemValues? (depth + 1) items).map .list
    else none
  | .object _ members =>
    if members.isEmpty || depth < Dialect.strict.depthLimit then
      (memberValues? (depth + 1) members).map .record
    else none

def itemValues? (depth : Nat) : List (Gap × Tree × Gap) → Option (List Value)
  | [] => some []
  | (_, item, _) :: rest => do
    let v ← item.value? depth
    let others ← itemValues? depth rest
    return v :: others

def memberValues? (depth : Nat) : List (Name × Tree × Gap) → Option (List (String × Value))
  | [] => some []
  | (name, value, _) :: rest => do
    let text ← name.text?
    let v ← value.value? depth
    let others ← memberValues? depth rest
    return (text, v) :: others

end

/-- A tree begins with no space and closes no bracket. -/
theorem opens (t : Tree) : ∃ c more, t.chars = c :: more ∧ Opens c := by
  cases t with
  | word name v known =>
    simp only [literals, List.mem_cons, Prod.mk.injEq, List.not_mem_nil, or_false] at known
    rcases known with ⟨rfl, -⟩ | ⟨rfl, -⟩ | ⟨rfl, -⟩ | ⟨rfl, -⟩ | ⟨rfl, -⟩ | ⟨rfl, -⟩
    all_goals exact ⟨_, _, rfl, by decide⟩
  | number n =>
    obtain ⟨c, more, same, digit⟩ := n.whole.head
    obtain ⟨first, others, shown, opens, -⟩ := opens_signed n.negative
      (more ++ (Numeral.fractionChars n.fraction ++ Numeral.exponentChars n.exponent)) digit
    refine ⟨first, others, ?_, opens⟩
    rw [chars, Numeral.chars, Numeral.unsigned, same, List.cons_append, shown]
  | text glyphs => exact ⟨'"', _, by rw [chars], by decide⟩
  | array inner items => exact ⟨'[', _, by rw [chars], by decide⟩
  | object inner members => exact ⟨'{', _, by rw [chars], by decide⟩

/-- The strict reader takes a tree for its value, whatever follows it. -/
def Reads (t : Tree) : Prop :=
  ∀ depth fuel rest, Apart rest → t.chars.length ≤ fuel →
    readValue .strict fuel depth (t.chars ++ rest) = answer (t.value? depth) rest

def ItemsRead (items : List (Gap × Tree × Gap)) : Prop :=
  ∀ depth fuel done rest, items ≠ [] → ([','].intercalate (itemParts items)).length < fuel →
    readItems .strict fuel depth done
        (skipSpace ([','].intercalate (itemParts items) ++ ']' :: rest)) =
      answer ((itemValues? depth items).map (done.reverse ++ ·)) rest

def MembersRead (members : List (Name × Tree × Gap)) : Prop :=
  ∀ depth fuel done rest, members ≠ [] →
    ([','].intercalate (memberParts members)).length < fuel →
    readMembers .strict fuel depth done
        (skipSpace ([','].intercalate (memberParts members) ++ '}' :: rest)) =
      answer ((memberValues? depth members).map (done.reverse ++ ·)) rest

theorem fuel_of_enough (t : Tree) {fuel : Nat} (enough : t.chars.length ≤ fuel) :
    ∃ less, fuel = less + 1 := by
  obtain ⟨c, more, same, -⟩ := t.opens
  rw [same] at enough
  exact Nat.exists_eq_succ_of_ne_zero (Nat.ne_zero_of_lt enough)

theorem reads_word {name : String} {v : Value} (known : (name, v) ∈ literals) :
    Reads (.word name v known) := by
  intro depth fuel rest _ enough
  obtain ⟨fuel, rfl⟩ := fuel_of_enough _ enough
  have one_of := known
  simp only [literals, List.mem_cons, Prod.mk.injEq, List.not_mem_nil, or_false] at one_of
  rcases one_of with ⟨rfl, rfl⟩ | ⟨rfl, rfl⟩ | ⟨rfl, rfl⟩ | ⟨rfl, rfl⟩ | ⟨rfl, rfl⟩ | ⟨rfl, rfl⟩
  all_goals rfl

theorem reads_number (n : Numeral) : Reads (.number n) := by
  intro depth fuel rest apart enough
  obtain ⟨fuel, rfl⟩ := fuel_of_enough _ enough
  have digits : ∃ c more, n.unsigned = c :: more ∧ c.isDigit := by
    obtain ⟨c, more, same, digit⟩ := n.whole.head
    exact ⟨c, _, by rw [Numeral.unsigned, same, List.cons_append], digit⟩
  rw [chars, Numeral.chars, readValue_signed .strict fuel depth n.negative rest digits,
    readNumber_numeral n apart, value?]

theorem reads_text (glyphs : List Glyph) : Reads (.text glyphs) := by
  intro depth fuel rest _ enough
  obtain ⟨fuel, rfl⟩ := fuel_of_enough _ enough
  have read := readChars_string glyphs rest
  rw [chars, List.cons_append, closed_append, List.nil_append, readValue.eq_def, value?]
  simp only [read]
  cases Glyph.meaning? glyphs <;> rfl

/-- What stands behind a gap is what follows it. -/
theorem skipSpace_tree (before : Gap) (t : Tree) (tail : List Char) :
    skipSpace (before.chars ++ (t.chars ++ tail)) = t.chars ++ tail := by
  obtain ⟨c, more, same, space, -⟩ := t.opens
  rw [before.skipSpace_append, same, List.cons_append, skipSpace_mark _ space]

theorem skipSpace_gap (after : Gap) {c : Char} (tail : List Char) (mark : isSpace c = false) :
    skipSpace (after.chars ++ c :: tail) = c :: tail := by
  rw [after.skipSpace_append, skipSpace_mark tail mark]

section Items

variable {depth fuel : Nat} {item : Tree} {before after : Gap} {items : List (Gap × Tree × Gap)}
  {v : Value} {tail : List Char}

theorem itemValues_refused (none_meant : item.value? depth = none) :
    itemValues? depth ((before, item, after) :: items) = none := by
  rw [itemValues?, none_meant]
  rfl

theorem itemValues_cons (meant : item.value? depth = some v) :
    itemValues? depth ((before, item, after) :: items) =
      (itemValues? depth items).map (v :: ·) := by
  rw [itemValues?, meant]
  cases itemValues? depth items <;> rfl

theorem readItems_refused (done : List Value) (first : item.Reads) (apart : Apart tail)
    (enough : item.chars.length ≤ fuel) (none_meant : item.value? depth = none) :
    readItems .strict (fuel + 1) depth done (item.chars ++ (after.chars ++ tail)) =
      .error .malformed := by
  have read := first depth fuel (after.chars ++ tail) (after.apart apart) enough
  rw [none_meant] at read
  rw [readItems, read]
  rfl

theorem readItems_last (done : List Value) (rest : List Char) (first : item.Reads)
    (enough : item.chars.length ≤ fuel) (meant : item.value? depth = some v) :
    readItems .strict (fuel + 1) depth done (item.chars ++ (after.chars ++ ']' :: rest)) =
      .ok ((v :: done).reverse, rest) := by
  have apart : Apart (']' :: rest) := .mark rest (by decide)
  have read := first depth fuel (after.chars ++ ']' :: rest) (after.apart apart) enough
  rw [meant] at read
  rw [readItems, read]
  simp only [answer, skipSpace_gap after (c := ']') rest rfl]

theorem readItems_next (done : List Value) (rest : List Char) (first : item.Reads)
    (enough : item.chars.length ≤ fuel) (meant : item.value? depth = some v) :
    readItems .strict (fuel + 1) depth done (item.chars ++ (after.chars ++ ',' :: rest)) =
      readItems .strict fuel depth (v :: done) (skipSpace rest) := by
  have apart : Apart (',' :: rest) := .mark rest (by decide)
  have read := first depth fuel (after.chars ++ ',' :: rest) (after.apart apart) enough
  rw [meant] at read
  rw [readItems, read]
  simp only [answer, skipSpace_gap after (c := ',') rest rfl]

theorem itemsRead_cons (before after : Gap) (first : item.Reads) (others : ItemsRead items) :
    ItemsRead ((before, item, after) :: items) := by
  intro depth fuel done rest _ enough
  obtain ⟨fuel, rfl⟩ := Nat.exists_eq_succ_of_ne_zero (Nat.ne_zero_of_lt enough)
  cases items with
  | nil =>
    simp only [itemParts, List.intercalate_singleton, List.length_append] at enough
    have short : item.chars.length ≤ fuel := by omega
    rw [itemParts, itemParts, List.intercalate_singleton, List.append_assoc, List.append_assoc,
      skipSpace_tree]
    cases meant : item.value? depth with
    | none =>
      rw [readItems_refused done first (.mark rest (by decide)) short meant,
        itemValues_refused meant]
      rfl
    | some v =>
      rw [readItems_last done rest first short meant, itemValues_cons meant, ← map_push,
        itemValues?, Option.map_some, List.append_nil]
      rfl
  | cons next items =>
    obtain ⟨before', item', after'⟩ := next
    rw [itemParts, itemParts, length_intercalate, List.length_append, List.length_append] at enough
    have short : item.chars.length ≤ fuel := by omega
    rw [itemParts, itemParts, intercalate_append, List.append_assoc, List.append_assoc,
      skipSpace_tree, ← itemParts]
    cases meant : item.value? depth with
    | none =>
      rw [readItems_refused done first (.mark _ (by decide)) short meant, itemValues_refused meant]
      rfl
    | some v =>
      have read := others depth fuel (v :: done) rest (List.cons_ne_nil _ _)
        (by rw [itemParts]; omega)
      rw [readItems_next done _ first short meant, read, itemValues_cons meant, map_push]

end Items

theorem opens_items {items : List (Gap × Tree × Gap)} (some_item : items ≠ [])
    (rest : List Char) : ∃ c more,
      skipSpace ([','].intercalate (itemParts items) ++ rest) = c :: more ∧ Opens c := by
  cases items with
  | nil => exact absurd rfl some_item
  | cons part items =>
    obtain ⟨before, item, after⟩ := part
    obtain ⟨c, more, same, opens⟩ := item.opens
    obtain ⟨tail, joined⟩ := intercalate_front (before.chars ++ (item.chars ++ after.chars))
      (itemParts items) rest
    refine ⟨c, more ++ (after.chars ++ tail), ?_, opens⟩
    rw [itemParts, joined, List.append_assoc, List.append_assoc, skipSpace_tree, same,
      List.cons_append]

theorem reads_array (inner : Gap) {items : List (Gap × Tree × Gap)} (h : ItemsRead items) :
    Reads (.array inner items) := by
  intro depth fuel rest apart enough
  obtain ⟨fuel, rfl⟩ := fuel_of_enough _ enough
  rw [chars, List.length_cons, List.length_append, List.length_append,
    List.length_singleton] at enough
  rw [chars, List.cons_append, List.append_assoc, List.append_assoc, List.singleton_append,
    readValue.eq_def, value?]
  simp only [inner.skipSpace_append, checkDepth_strict]
  by_cases none_inside : items = []
  · rw [none_inside]
    simp [itemParts, skipSpace_mark (c := ']') rest rfl, itemValues?, answer]
  · have read := h (depth + 1) fuel [] rest none_inside (by omega)
    obtain ⟨c, more, same, -, no_end, -⟩ := opens_items none_inside (']' :: rest)
    have some_inside : items.isEmpty = false := by simpa using none_inside
    rw [same] at read ⊢
    simp only [List.head?_cons, Option.some.injEq, no_end, some_inside, decide_false]
    by_cases near : depth < Dialect.strict.depthLimit
    · simp only [near, decide_true, Bool.or_true, if_true]
      split
      · exact absurd (List.cons.inj ‹_›).1 no_end
      · rw [read]
        cases itemValues? (depth + 1) items <;> rfl
    · simp [near, answer]

section Members

variable {depth fuel : Nat} {name : Name} {value : Tree} {after : Gap}
  {members : List (Name × Tree × Gap)} {text : String} {v : Value} {tail : List Char}

theorem memberValues_refused (none_meant : name.text? = none ∨ value.value? depth = none) :
    memberValues? depth ((name, value, after) :: members) = none := by
  rw [memberValues?]
  rcases none_meant with unnamed | none_meant
  · rw [unnamed]
    rfl
  · rw [none_meant]
    cases name.text? <;> rfl

theorem memberValues_cons (named : name.text? = some text) (meant : value.value? depth = some v) :
    memberValues? depth ((name, value, after) :: members) =
      (memberValues? depth members).map ((text, v) :: ·) := by
  rw [memberValues?, named, meant]
  cases memberValues? depth members <;> rfl

def endMember (fuel depth : Nat) (done : List (String × Value)) (text : String) :
    Except Fault (Value × List Char) → Except Fault (List (String × Value) × List Char)
  | .error fault => .error fault
  | .ok (v, rest) =>
    match skipSpace rest with
    | ',' :: rest => readMembers .strict fuel depth ((text, v) :: done) (skipSpace rest)
    | '}' :: rest => .ok (((text, v) :: done).reverse, rest)
    | _ => .error .malformed

/-- A member up to its value. -/
theorem readMembers_name (done : List (String × Value)) (name : Name) (value : Tree)
    (tail : List Char) :
    readMembers .strict (fuel + 1) depth done (skipSpace (name.front (value.chars ++ tail))) =
      match name.text? with
      | none => .error .malformed
      | some text =>
        endMember fuel depth done text (readValue .strict fuel depth (value.chars ++ tail)) := by
  have read := readChars_string name.glyphs (name.mid.chars ++ ':' :: (name.after.chars ++
    (value.chars ++ tail)))
  rw [Name.front, name.before.skipSpace_append, skipSpace_mark _ (by decide), readMembers.eq_def,
    Name.text?]
  simp only [read]
  cases Glyph.meaning? name.glyphs with
  | none => rfl
  | some cs =>
    simp only [Option.map_some, answer, skipSpace_gap name.mid (c := ':') _ rfl, skipSpace_tree]
    rfl

theorem readMembers_refused (done : List (String × Value)) (first : value.Reads)
    (apart : Apart tail) (enough : value.chars.length ≤ fuel)
    (none_meant : name.text? = none ∨ value.value? depth = none) :
    readMembers .strict (fuel + 1) depth done
        (skipSpace (name.front (value.chars ++ (after.chars ++ tail)))) = .error .malformed := by
  have read := first depth fuel (after.chars ++ tail) (after.apart apart) enough
  rw [readMembers_name]
  rcases none_meant with unnamed | none_meant
  · rw [unnamed]
  · rw [none_meant] at read
    rw [read]
    cases name.text? <;> rfl

theorem readMembers_last (done : List (String × Value)) (rest : List Char) (first : value.Reads)
    (enough : value.chars.length ≤ fuel) (named : name.text? = some text)
    (meant : value.value? depth = some v) :
    readMembers .strict (fuel + 1) depth done
        (skipSpace (name.front (value.chars ++ (after.chars ++ '}' :: rest)))) =
      .ok (((text, v) :: done).reverse, rest) := by
  have apart : Apart ('}' :: rest) := .mark rest (by decide)
  have read := first depth fuel (after.chars ++ '}' :: rest) (after.apart apart) enough
  rw [meant] at read
  rw [readMembers_name, named, read]
  simp only [answer, endMember, skipSpace_gap after (c := '}') rest rfl]

theorem readMembers_next (done : List (String × Value)) (rest : List Char) (first : value.Reads)
    (enough : value.chars.length ≤ fuel) (named : name.text? = some text)
    (meant : value.value? depth = some v) :
    readMembers .strict (fuel + 1) depth done
        (skipSpace (name.front (value.chars ++ (after.chars ++ ',' :: rest)))) =
      readMembers .strict fuel depth ((text, v) :: done) (skipSpace rest) := by
  have apart : Apart (',' :: rest) := .mark rest (by decide)
  have read := first depth fuel (after.chars ++ ',' :: rest) (after.apart apart) enough
  rw [meant] at read
  rw [readMembers_name, named, read]
  simp only [answer, endMember, skipSpace_gap after (c := ',') rest rfl]

theorem front_append (name : Name) (a b : List Char) : name.front a ++ b = name.front (a ++ b) := by
  simp only [Name.front, List.append_assoc, List.cons_append, closed_append]

theorem length_le_front (name : Name) (a : List Char) : a.length < (name.front a).length := by
  simp only [Name.front, closed, List.length_append, List.length_cons]
  omega

theorem meant_or_refused (depth : Nat) (name : Name) (value : Tree) :
    (name.text? = none ∨ value.value? depth = none) ∨
      ∃ text v, name.text? = some text ∧ value.value? depth = some v := by
  cases name.text? with
  | none => exact .inl (.inl rfl)
  | some text =>
    cases value.value? depth with
    | none => exact .inl (.inr rfl)
    | some v => exact .inr ⟨text, v, rfl, rfl⟩

theorem membersRead_cons (name : Name) (after : Gap) (first : value.Reads)
    (others : MembersRead members) : MembersRead ((name, value, after) :: members) := by
  intro depth fuel done rest _ enough
  obtain ⟨fuel, rfl⟩ := Nat.exists_eq_succ_of_ne_zero (Nat.ne_zero_of_lt enough)
  have longer := length_le_front name (value.chars ++ after.chars)
  rw [List.length_append] at longer
  cases members with
  | nil =>
    rw [memberParts, memberParts, List.intercalate_singleton] at enough
    have short : value.chars.length ≤ fuel := by omega
    rw [memberParts, memberParts, List.intercalate_singleton, front_append, List.append_assoc]
    rcases meant_or_refused depth name value with none_meant | ⟨text, v, named, meant⟩
    · rw [readMembers_refused done first (.mark rest (by decide)) short none_meant,
        memberValues_refused none_meant]
      rfl
    · rw [readMembers_last done rest first short named meant, memberValues_cons named meant,
        ← map_push, memberValues?, Option.map_some, List.append_nil]
      rfl
  | cons next members =>
    obtain ⟨name', value', after'⟩ := next
    rw [memberParts, memberParts, length_intercalate] at enough
    have short : value.chars.length ≤ fuel := by omega
    rw [memberParts, memberParts, intercalate_append, front_append, List.append_assoc,
      ← memberParts]
    rcases meant_or_refused depth name value with none_meant | ⟨text, v, named, meant⟩
    · rw [readMembers_refused done first (.mark _ (by decide)) short none_meant,
        memberValues_refused none_meant]
      rfl
    · have read := others depth fuel ((text, v) :: done) rest (List.cons_ne_nil _ _)
        (by rw [memberParts]; omega)
      rw [readMembers_next done _ first short named meant, read, memberValues_cons named meant,
        map_push]

end Members

theorem opens_members {members : List (Name × Tree × Gap)} (some_member : members ≠ [])
    (rest : List Char) : ∃ more,
      skipSpace ([','].intercalate (memberParts members) ++ rest) = '"' :: more := by
  cases members with
  | nil => exact absurd rfl some_member
  | cons part members =>
    obtain ⟨name, value, after⟩ := part
    obtain ⟨tail, joined⟩ := intercalate_front (name.front (value.chars ++ after.chars))
      (memberParts members) rest
    refine ⟨closed name.glyphs (name.mid.chars ++ ':' :: (name.after.chars ++
      (value.chars ++ after.chars ++ tail))), ?_⟩
    rw [memberParts, joined, front_append, Name.front, name.before.skipSpace_append,
      skipSpace_mark _ (by decide)]

theorem reads_object (inner : Gap) {members : List (Name × Tree × Gap)} (h : MembersRead members) :
    Reads (.object inner members) := by
  intro depth fuel rest apart enough
  obtain ⟨fuel, rfl⟩ := fuel_of_enough _ enough
  rw [chars, List.length_cons, List.length_append, List.length_append,
    List.length_singleton] at enough
  rw [chars, List.cons_append, List.append_assoc, List.append_assoc, List.singleton_append,
    readValue.eq_def, value?]
  simp only [inner.skipSpace_append, checkDepth_strict]
  by_cases none_inside : members = []
  · rw [none_inside]
    simp [memberParts, skipSpace_mark (c := '}') rest rfl, memberValues?, answer]
  · have read := h (depth + 1) fuel [] rest none_inside (by omega)
    obtain ⟨more, same⟩ := opens_members none_inside ('}' :: rest)
    have some_inside : members.isEmpty = false := by simpa using none_inside
    have no_end : '"' ≠ '}' := by decide
    rw [same] at read ⊢
    simp only [List.head?_cons, Option.some.injEq, no_end, some_inside, decide_false]
    by_cases near : depth < Dialect.strict.depthLimit
    · simp only [near, decide_true, Bool.or_true, if_true]
      rw [read]
      cases memberValues? (depth + 1) members <;> rfl
    · simp [near, answer]

mutual

theorem reads : ∀ t : Tree, t.Reads
  | .word _ _ known => reads_word known
  | .number n => reads_number n
  | .text glyphs => reads_text glyphs
  | .array inner items => reads_array inner (itemsRead items)
  | .object inner members => reads_object inner (membersRead members)

theorem itemsRead : ∀ items, ItemsRead items
  | [] => fun _ _ _ _ some_item => absurd rfl some_item
  | (before, item, after) :: items => itemsRead_cons before after (reads item) (itemsRead items)

theorem membersRead : ∀ members, MembersRead members
  | [] => fun _ _ _ _ some_member => absurd rfl some_member
  | (name, value, after) :: members =>
    membersRead_cons name after (reads value) (membersRead members)

end

end Tree

def document (before : Gap) (t : Tree) (after : Gap) : String :=
  String.ofList (before.chars ++ (t.chars ++ after.chars))

/-- The strict reader reads a text as the value that it stands for, or refuses it if there is
none. -/
theorem read_document (before : Gap) (t : Tree) (after : Gap) :
    read .strict (document before t after) =
      match t.value? 0 with
      | some v => .ok v
      | none => .error .malformed := by
  have apart : Apart after.chars := by
    have ends := after.apart .nil
    rwa [List.append_nil] at ends
  have value := t.reads 0 ((t.chars ++ after.chars).length + 1) after.chars apart
    (by rw [List.length_append]; omega)
  have none_left : skipSpace after.chars = [] := by
    have skipped := after.skipSpace_append []
    rwa [List.append_nil] at skipped
  rw [read, document, String.toList_ofList]
  simp only [Tree.skipSpace_tree, value]
  cases t.value? 0 with
  | none => rfl
  | some v => simp only [answer, none_left, List.isEmpty_nil, if_true]

end ControlPanel.Json
