import ControlPanel.Json.Reader
import ControlPanel.Json.Writer
import ControlPanel.Proofs.ShortestDecimal

/-!
# JSON read back

The text that is written for a value is read as that value, in either dialect, if its numbers are
finite, its whole numbers are not too long and its brackets not nested too deeply.
-/
namespace ControlPanel.Json

theorem hexValue_hexDigit {n : Nat} (h : n < 16) : Text.hexValue? (Text.hexDigit n) = some n := by
  revert h n
  decide

theorem hexQuad_hexDigits {n : Nat} (h : n < 65536) (rest : List Char) :
    hexQuad? (Text.hexDigits 4 n ++ rest) = some (n, rest) := by
  have digit (k : Nat) : Text.hexValue? (Text.hexDigit (k % 16)) = some (k % 16) :=
    hexValue_hexDigit (Nat.mod_lt _ (by decide))
  simp only [Text.hexDigits, List.nil_append, List.cons_append, hexQuad?, digit]
  congr 2
  omega

theorem readChars_escapeChar (d : Dialect) (fuel : Nat) (done rest : List Char) (c : Char) :
    readChars d (fuel + 1) done (escapeChar c ++ rest) = readChars d fuel (c :: done) rest := by
  unfold escapeChar
  split
  · subst_vars; rfl
  split
  · subst_vars; rfl
  split
  · subst_vars; rfl
  split
  · subst_vars; rfl
  split
  · subst_vars; rfl
  split
  · subst_vars; rfl
  split
  · subst_vars; rfl
  split
  · rename_i control
    have plain : isHighSurrogate c.toNat = false ∧ isLowSurrogate c.toNat = false := by
      simp only [isHighSurrogate, isLowSurrogate, Bool.and_eq_false_iff, decide_eq_false_iff_not]
      omega
    have read : readUnicode d (Text.hexDigits 4 c.toNat ++ rest) = .ok (c, rest) := by
      simp only [readUnicode, hexQuad_hexDigits (by omega : c.toNat < 65536) rest, plain,
        Bool.false_eq_true, if_false, Char.ofNat_toNat]
    simp only [List.cons_append, readChars, read]
  · rename_i h1 h2 h3 h4 h5 h6 h7 h8
    rw [readChars.eq_def]
    simp only [List.cons_append, List.nil_append]
    split <;> simp_all

theorem readChars_escape (d : Dialect) (cs : List Char) (done rest : List Char) {fuel : Nat}
    (h : cs.length < fuel) :
    readChars d fuel done (escape cs ++ '"' :: rest) =
      .ok (String.ofList (done.reverse ++ cs), rest) := by
  induction cs generalizing done fuel with
  | nil =>
    obtain ⟨fuel, rfl⟩ := Nat.exists_eq_succ_of_ne_zero (by omega : fuel ≠ 0)
    simp [escape, readChars]
  | cons c cs ih =>
    obtain ⟨fuel, rfl⟩ := Nat.exists_eq_succ_of_ne_zero (by omega : fuel ≠ 0)
    simp only [escape, List.flatMap_cons, List.append_assoc, List.length_cons] at ih h ⊢
    rw [readChars_escapeChar, ih _ (by omega)]
    simp

theorem length_escape (cs : List Char) : cs.length ≤ (escape cs).length := by
  induction cs with
  | nil => rfl
  | cons c cs ih =>
    have one : 1 ≤ (escapeChar c).length := by
      unfold escapeChar
      repeat' split
      all_goals simp
    simp only [escape, List.flatMap_cons, List.length_append, List.length_cons] at ih ⊢
    omega

theorem readChars_quote (d : Dialect) (s : String) (rest : List Char) {fuel : Nat}
    (h : (escape s.toList ++ '"' :: rest).length < fuel) :
    readChars d fuel [] (escape s.toList ++ '"' :: rest) = .ok (s, rest) := by
  have short := length_escape s.toList
  rw [readChars_escape d s.toList [] rest (by simp at h ⊢; omega)]
  simp

def ValueEnds (rest : List Char) : Prop :=
  ∀ c ∈ rest.head?, c = ',' ∨ c = ']' ∨ c = '}'

theorem ValueEnds.digits {rest : List Char} (h : ValueEnds rest) : DigitsEnd rest := by
  intro c hc
  rcases h c hc with rfl | rfl | rfl <;> rfl

theorem takeWhole_append {whole rest : List Char} (digits : ∀ c ∈ whole, c.isDigit)
    (lead : whole = ['0'] ∨ whole.head? ≠ some '0') (ends : DigitsEnd rest) :
    takeWhole (whole ++ rest) = (whole, rest) := by
  rcases lead with rfl | lead
  · rfl
  · have plain : takeWhole (whole ++ rest) = takeDigits (whole ++ rest) := by
      unfold takeWhole
      split
      · rename_i cs after same
        cases whole with
        | nil =>
          have front : rest = '0' :: after := same
          exact absurd (ends '0' (by rw [front]; rfl)) (by decide)
        | cons c whole =>
          cases same
          exact absurd rfl lead
      · rfl
    rw [plain, takeDigits_append digits ends]

theorem takeFraction_none {rest : List Char} (h : rest.head? ≠ some '.') :
    takeFraction rest = (none, rest) := by
  unfold takeFraction
  split
  · exact absurd rfl h
  · rfl

theorem takeFraction_append {digits rest : List Char} (some_digit : digits ≠ [])
    (h : ∀ c ∈ digits, c.isDigit) (ends : DigitsEnd rest) :
    takeFraction ('.' :: (digits ++ rest)) = (some digits, rest) := by
  simp [takeFraction, takeDigits_append h ends, some_digit]

theorem takeFraction_ended {rest : List Char} (ends : ValueEnds rest) :
    takeFraction rest = (none, rest) := by
  refine takeFraction_none fun dot => ?_
  have other := ends '.' dot
  exact absurd other (by decide)

theorem takeExponent_none {rest : List Char} (h : ValueEnds rest) :
    takeExponent rest = (none, rest) := by
  cases rest with
  | nil => rfl
  | cons c rest =>
    have apart : ¬(c = 'e' ∨ c = 'E') := by
      rcases h c rfl with rfl | rfl | rfl <;> decide
    simp [takeExponent, apart]

theorem takeExponent_append {digits rest : List Char} (negative : Bool) (some_digit : digits ≠ [])
    (h : ∀ c ∈ digits, c.isDigit) (ends : DigitsEnd rest) :
    takeExponent ('e' :: (if negative then '-' else '+') :: (digits ++ rest)) =
      (some (if negative then -(digitsValue digits : Int) else digitsValue digits), rest) := by
  cases negative <;> simp [takeExponent, takeSign, takeDigits_append h ends, some_digit]

/-- The parts of a number, and what may follow it. -/
theorem readNumber_checked (d : Dialect) (negative : Bool) {whole after rest rest' : List Char}
    {fraction : Option (List Char)} {exponent : Option Int} (digits : ∀ c ∈ whole, c.isDigit)
    (lead : whole = ['0'] ∨ whole.head? ≠ some '0') (some_digit : whole ≠ [])
    (ends : DigitsEnd after) (hf : takeFraction after = (fraction, rest'))
    (he : takeExponent rest' = (exponent, rest)) :
    readNumber d negative (whole ++ after) =
      (d.checkLength (fraction.isNone && exponent.isNone) whole.length).map fun _ =>
        (numberValue negative whole fraction exponent, rest) := by
  simp only [readNumber, takeWhole_append digits lead ends, hf, he]
  cases d.checkLength (fraction.isNone && exponent.isNone) whole.length <;>
    simp [some_digit, bind, Except.bind, pure, Except.pure, Except.map]

/-- A number that is not too long. -/
theorem readNumber_parts (d : Dialect) (negative : Bool) {whole after rest rest' : List Char}
    {fraction : Option (List Char)} {exponent : Option Int} (digits : ∀ c ∈ whole, c.isDigit)
    (lead : whole = ['0'] ∨ whole.head? ≠ some '0') (some_digit : whole ≠ [])
    (short : whole.length ≤ digitLimit) (ends : DigitsEnd after)
    (hf : takeFraction after = (fraction, rest')) (he : takeExponent rest' = (exponent, rest)) :
    readNumber d negative (whole ++ after) =
      .ok (numberValue negative whole fraction exponent, rest) := by
  have within : d.checkLength (fraction.isNone && exponent.isNone) whole.length = .ok () := by
    unfold Dialect.checkLength
    rw [if_pos short]
  rw [readNumber_checked d negative digits lead some_digit ends hf he, within]
  rfl

theorem head_toDigits {n : Nat} (h : 0 < n) : (Nat.toDigits 10 n).head? ≠ some '0' := by
  induction n using Nat.strongRecOn with
  | ind n ih =>
    rcases Nat.lt_or_ge n 10 with small | large
    · have digit : ∀ k < 10, 0 < k → [k.digitChar].head? ≠ some '0' := by decide
      rw [Nat.toDigits_of_lt_base small]
      exact digit n small h
    · have front : (Nat.toDigits 10 (n / 10)).head? ≠ none := by simp
      rw [Nat.toDigits_of_base_le (by decide) large, List.head?_append, Option.or_of_isSome
        (Option.isSome_iff_ne_none.mpr front)]
      exact ih (n / 10) (by omega) (by omega)

theorem lead_toDigits (n : Nat) :
    Nat.toDigits 10 n = ['0'] ∨ (Nat.toDigits 10 n).head? ≠ some '0' := by
  rcases Nat.eq_zero_or_pos n with rfl | positive
  · exact .inl (Nat.toDigits_zero 10)
  · exact .inr (head_toDigits positive)

theorem readNumber_toDigits (d : Dialect) (negative : Bool) {n : Nat} {rest : List Char}
    (short : n < 10 ^ digitLimit) (ends : ValueEnds rest) :
    readNumber d negative (Nat.toDigits 10 n ++ rest) =
      .ok (.int (if negative then -(n : Int) else n), rest) := by
  have length : (Nat.toDigits 10 n).length ≤ digitLimit :=
    (Nat.length_toDigits_le_iff (by decide) (by decide)).mpr short
  rw [readNumber_parts d negative (fun c => isDigit_toDigits) (lead_toDigits n) Nat.toDigits_ne_nil
    length ends.digits (takeFraction_ended ends) (takeExponent_none ends)]
  simp [numberValue]

/-- A number with a point and no exponent. -/
theorem readNumber_point (d : Dialect) (negative : Bool) (whole fraction : List Char)
    {rest : List Char} (digits : ∀ c ∈ whole, c.isDigit) (lead : whole = ['0'] ∨ whole.head? ≠ some '0')
    (some_digit : whole ≠ []) (short : whole.length ≤ digitLimit) (some_fraction : fraction ≠ [])
    (fraction_digits : ∀ c ∈ fraction, c.isDigit) (ends : ValueEnds rest) :
    readNumber d negative (whole ++ '.' :: (fraction ++ rest)) =
      .ok (.real (.ofDecimal negative (digitsValue (whole ++ fraction)) (-fraction.length)), rest) := by
  rw [readNumber_parts d negative digits lead some_digit short (.cons _ rfl)
    (takeFraction_append some_fraction fraction_digits ends.digits) (takeExponent_none ends)]
  simp [numberValue]

theorem exponentText_json (e : Int) :
    RealStyle.json.exponentText e =
      'e' :: (if e < 0 then '-' else '+') :: Nat.toDigits 10 e.natAbs := by
  have digits := Nat.length_toDigits_pos (b := 10) (n := e.natAbs)
  have none_more : 1 - (Nat.toDigits 10 e.natAbs).length = 0 := by omega
  simp [RealStyle.exponentText, RealStyle.json, none_more]

theorem takeExponent_json {e : Int} {rest : List Char} (ends : ValueEnds rest) :
    takeExponent (RealStyle.json.exponentText e ++ rest) = (some e, rest) := by
  have digits : ∀ c ∈ Nat.toDigits 10 e.natAbs, c.isDigit := fun c => isDigit_toDigits
  have taken := takeExponent_append (decide (e < 0)) Nat.toDigits_ne_nil digits ends.digits
  rw [exponentText_json]
  simp only [decide_eq_true_eq, digitsValue_toDigits] at taken
  rw [List.cons_append, List.cons_append, taken]
  congr 2
  omega

/-- A number with one digit before the point and an exponent. -/
theorem readNumber_exponent (d : Dialect) (negative : Bool) {digit : Char} {more rest : List Char}
    (e : Int) (digits : ∀ c ∈ digit :: more, c.isDigit) (ends : ValueEnds rest) :
    readNumber d negative
        ((if more = [] then [digit] else digit :: '.' :: more) ++ RealStyle.json.exponentText e ++
          rest) =
      .ok (.real (.ofDecimal negative (digitsValue (digit :: more)) (e - more.length)), rest) := by
  have whole : ∀ c ∈ [digit], c.isDigit := fun c hc => digits c (by simp_all)
  have lead : [digit] = ['0'] ∨ [digit].head? ≠ some '0' := by
    by_cases zero : digit = '0' <;> simp [zero]
  have short : [digit].length ≤ digitLimit := by simp [digitLimit]
  have mark : DigitsEnd (RealStyle.json.exponentText e ++ rest) := by
    rw [exponentText_json]
    exact .cons _ rfl
  by_cases none_more : more = []
  · subst none_more
    have no_point : takeFraction (RealStyle.json.exponentText e ++ rest) =
        (none, RealStyle.json.exponentText e ++ rest) := by
      rw [exponentText_json]
      exact takeFraction_none (by simp)
    rw [if_pos rfl, List.append_assoc, readNumber_parts d negative whole lead (by simp) short
      mark no_point (takeExponent_json ends)]
    simp [numberValue]
  · have fraction : ∀ c ∈ more, c.isDigit := fun c hc => digits c (List.mem_cons_of_mem _ hc)
    have parts := readNumber_parts d negative whole lead (by simp) short (.cons _ rfl)
      (takeFraction_append none_more fraction mark) (takeExponent_json ends)
    rw [if_neg none_more]
    simpa [numberValue] using parts

/-- Zeros up to the point, and one behind it. -/
theorem readNumber_padded (d : Dialect) (negative : Bool) {x : Decimal} {rest : List Char}
    (nonzero : 0 < x.coefficient ∨ x = ⟨0, 0⟩) (whole : 0 ≤ x.exponent)
    (short : x.leading < digitLimit) (ends : ValueEnds rest) :
    readNumber d negative (x.digits ++ List.replicate x.exponent.toNat '0' ++ ['.', '0'] ++ rest) =
      .ok (.real (.ofDecimal negative (x.coefficient * 10 ^ (x.exponent.toNat + 1))
        (x.exponent - (x.exponent.toNat + 1 : Nat))), rest) := by
  have exponent : x.exponent - (x.exponent.toNat + 1 : Nat) = -(['0'] : List Char).length := by
    simp only [List.length_singleton]
    omega
  have coefficient : digitsValue (x.digits ++ List.replicate x.exponent.toNat '0' ++ ['0']) =
      x.coefficient * 10 ^ (x.exponent.toNat + 1) := by
    rw [List.append_assoc, ← List.replicate_succ', digitsValue_append, Decimal.digitsValue_digits,
      digitsValue_zeros, List.length_replicate, Nat.add_zero, Nat.mul_comm]
  have read := readNumber_point d negative
    (x.digits ++ List.replicate x.exponent.toNat '0') ['0'] ?_ ?_ ?_ ?_ ?_ ?_ ends
  · rw [coefficient, ← exponent] at read
    simpa using read
  · intro c mem
    rcases List.mem_append.mp mem with mem | mem
    · exact Decimal.isDigit_digits c mem
    · rw [List.eq_of_mem_replicate mem]
      rfl
  · rcases nonzero with positive | rfl
    · refine .inr ?_
      rw [List.head?_append, Option.or_of_isSome (by simp [Decimal.digits_ne_nil])]
      exact head_toDigits positive
    · exact .inl rfl
  · simp [Decimal.digits_ne_nil]
  · rw [List.length_append, List.length_replicate]
    have leading := Decimal.leading_eq x
    omega
  · simp
  · simp

/-- The point stands between two digits. -/
theorem readNumber_pointed (d : Dialect) (negative : Bool) {x : Decimal} {rest : List Char}
    (fractional : x.exponent < 0) (front : 0 ≤ x.leading) (short : x.leading < digitLimit)
    (ends : ValueEnds rest) :
    readNumber d negative (x.digits.take (x.leading.toNat + 1) ++
        '.' :: x.digits.drop (x.leading.toNat + 1) ++ rest) =
      .ok (.real (.ofDecimal negative x.coefficient x.exponent), rest) := by
  have leading := Decimal.leading_eq x
  have exponent : x.exponent = -(x.digits.drop (x.leading.toNat + 1)).length := by
    rw [List.length_drop]
    omega
  have read := readNumber_point d negative (x.digits.take (x.leading.toNat + 1))
    (x.digits.drop (x.leading.toNat + 1)) ?_ ?_ ?_ ?_ ?_ ?_ ends
  · rw [List.take_append_drop, Decimal.digitsValue_digits, ← exponent] at read
    simpa using read
  · exact fun c mem => Decimal.isDigit_digits c (List.mem_of_mem_take mem)
  · rcases lead_toDigits x.coefficient with zero | lead
    · exact .inl (by rw [Decimal.digits, zero]; simp)
    · exact .inr (by simpa [Decimal.digits, List.head?_take] using lead)
  · simp [Decimal.digits_ne_nil]
  · rw [List.length_take]
    omega
  · rw [Ne, List.drop_eq_nil_iff]
    omega
  · exact fun c mem => Decimal.isDigit_digits c (List.mem_of_mem_drop mem)

/-- Zeros follow the point. -/
theorem readNumber_below (d : Dialect) (negative : Bool) {x : Decimal} {rest : List Char}
    (below : x.leading < 0) (ends : ValueEnds rest) :
    readNumber d negative
        ('0' :: '.' :: (List.replicate (-x.leading - 1).toNat '0' ++ x.digits) ++ rest) =
      .ok (.real (.ofDecimal negative x.coefficient x.exponent), rest) := by
  have leading := Decimal.leading_eq x
  have exponent : x.exponent = -(List.replicate (-x.leading - 1).toNat '0' ++ x.digits).length := by
    rw [List.length_append, List.length_replicate]
    omega
  have coefficient : digitsValue
      (['0'] ++ (List.replicate (-x.leading - 1).toNat '0' ++ x.digits)) = x.coefficient := by
    rw [List.singleton_append, ← List.cons_append, ← List.replicate_succ, digitsValue_append,
      digitsValue_zeros, Decimal.digitsValue_digits, Nat.mul_zero, Nat.zero_add]
  have read := readNumber_point d negative ['0']
    (List.replicate (-x.leading - 1).toNat '0' ++ x.digits) ?_ ?_ ?_ ?_ ?_ ?_ ends
  · rw [coefficient, ← exponent] at read
    simpa using read
  · simp
  · exact .inl rfl
  · simp
  · simp [digitLimit]
  · simp [Decimal.digits_ne_nil]
  · intro c mem
    rcases List.mem_append.mp mem with mem | mem
    · rw [List.eq_of_mem_replicate mem]
      rfl
    · exact Decimal.isDigit_digits c mem

/-- A decimal is written so that it is read as its digits, with some zeros more at their end. -/
theorem readNumber_decimal (d : Dialect) (negative : Bool) {x : Decimal} {rest : List Char}
    (nonzero : 0 < x.coefficient ∨ x = ⟨0, 0⟩) (ends : ValueEnds rest) :
    ∃ zeros : Nat, readNumber d negative (RealStyle.json.write x ++ rest) =
      .ok (.real (.ofDecimal negative (x.coefficient * 10 ^ zeros) (x.exponent - zeros)), rest) := by
  have unchanged : x.coefficient * 10 ^ 0 = x.coefficient ∧ x.exponent - (0 : Nat) = x.exponent := by
    simp
  simp only [RealStyle.write]
  split
  · -- One digit before the point, and an exponent.
    have digits : ∀ c ∈ x.digits, c.isDigit := Decimal.isDigit_digits
    have value := Decimal.digitsValue_digits x
    have leading := Decimal.leading_eq x
    refine ⟨0, ?_⟩
    cases parts : x.digits with
    | nil => exact absurd parts (Decimal.digits_ne_nil x)
    | cons digit more =>
      rw [parts] at digits value leading
      have read := readNumber_exponent d negative x.leading digits ends
      have exponent : x.leading - more.length = x.exponent := by
        simp only [List.length_cons] at leading
        omega
      rw [value, exponent] at read
      rw [unchanged.1, unchanged.2, ← read]
      cases more <;> simp
  · rename_i moderate
    simp only [RealStyle.json, not_or, Int.not_lt, Int.not_le] at moderate
    have short : x.leading < digitLimit := moderate.2.trans (by decide)
    split
    · rename_i whole
      exact ⟨_, readNumber_padded d negative nonzero whole short ends⟩
    · rename_i fractional
      refine ⟨0, ?_⟩
      rw [unchanged.1, unchanged.2]
      split
      · rename_i front
        exact readNumber_pointed d negative (by omega) front short ends
      · rename_i below
        exact readNumber_below d negative (by omega) ends

theorem readNumber_shortest (d : Dialect) (negative : Bool) (m : Magnitude) {rest : List Char}
    (ends : ValueEnds rest) :
    readNumber d negative (RealStyle.json.write m.shortest ++ rest) =
      .ok (.real (.finite negative m), rest) := by
  have nonzero : 0 < m.shortest.coefficient ∨ m.shortest = ⟨0, 0⟩ := by
    rcases Nat.eq_zero_or_pos m.quanta with none | some
    · exact .inr (by rw [Magnitude.shortest, if_pos none])
    · exact .inl (Decimal.leading_bounds some (Decimal.shortest_readsAs some)).1
  obtain ⟨zeros, read⟩ := readNumber_decimal d negative nonzero ends
  rw [read, Decimal.ofDecimal_shortest]

theorem head_decimal (x : Decimal) :
    ∃ c more, RealStyle.json.write x = c :: more ∧ c.isDigit := by
  have digits : ∀ c ∈ x.digits, c.isDigit := Decimal.isDigit_digits
  cases parts : x.digits with
  | nil => exact absurd parts (Decimal.digits_ne_nil x)
  | cons digit more =>
    rw [parts] at digits
    have first := digits digit List.mem_cons_self
    simp only [RealStyle.write, parts]
    split
    · cases more <;> exact ⟨_, _, rfl, first⟩
    · split
      · exact ⟨_, _, rfl, first⟩
      · split
        · exact ⟨_, _, rfl, first⟩
        · exact ⟨_, _, rfl, rfl⟩

/-- A digit begins none of the words that stand for a value. -/
theorem readScalar_digit (d : Dialect) (negative : Bool) {c : Char} (more : List Char)
    (digit : c.isDigit) :
    readScalar d ((if negative then ['-'] else []) ++ c :: more) =
      readNumber d negative (c :: more) := by
  have apart : c ≠ 'n' ∧ c ≠ 't' ∧ c ≠ 'f' ∧ c ≠ 'N' ∧ c ≠ 'I' ∧ c ≠ '-' := by
    refine ⟨?_, ?_, ?_, ?_, ?_, ?_⟩ <;> (rintro rfl; revert digit; decide)
  cases negative <;>
    simp [readScalar, literals, dropWord?, apart, Ne.symm]

mutual

/-- A value inside `depth` brackets whose text a dialect can read: numbers are finite and not too
long, and no bracket is too deep. -/
def Readable (d : Dialect) (depth : Nat) : Value → Prop
  | .int n => n.natAbs < 10 ^ digitLimit
  | .real x => x.isFinite
  | .bytes _ => False
  | .list items => depth < d.depthLimit ∧ ReadableItems d (depth + 1) items
  | .record members => depth < d.depthLimit ∧ ReadableMembers d (depth + 1) members
  | _ => True

def ReadableItems (d : Dialect) (depth : Nat) : List Value → Prop
  | [] => True
  | item :: rest => Readable d depth item ∧ ReadableItems d depth rest

def ReadableMembers (d : Dialect) (depth : Nat) : List (String × Value) → Prop
  | [] => True
  | (_, value) :: rest => Readable d depth value ∧ ReadableMembers d depth rest

end

def chars (v : Value) : List Char := (writeAt .compact 0 v).toList

def charsOfItems : List Value → List (List Char)
  | [] => []
  | item :: rest => chars item :: charsOfItems rest

def charsOfMembers : List (String × Value) → List (List Char)
  | [] => []
  | (name, value) :: rest =>
    ('"' :: (escape name.toList ++ '"' :: ':' :: chars value)) :: charsOfMembers rest

mutual

theorem writeAt_compact (level : Nat) : ∀ v, writeAt .compact level v = writeAt .compact 0 v
  | .null => rfl
  | .bool _ => rfl
  | .int _ => rfl
  | .real _ => rfl
  | .text _ => rfl
  | .bytes _ => rfl
  | .list items => by
    simp only [writeAt, writeItems_compact (level + 1) items, writeItems_compact (0 + 1) items]
    rfl
  | .record members => by
    simp only [writeAt, writeMembers_compact (level + 1) members,
      writeMembers_compact (0 + 1) members]
    rfl

theorem writeItems_compact (level : Nat) :
    ∀ items, writeItems .compact level items = writeItems .compact 0 items
  | [] => rfl
  | item :: rest => by
    simp only [writeItems, writeAt_compact level item, writeItems_compact level rest]

theorem writeMembers_compact (level : Nat) :
    ∀ members, writeMembers .compact level members = writeMembers .compact 0 members
  | [] => rfl
  | (_, value) :: rest => by
    simp only [writeMembers, writeAt_compact level value, writeMembers_compact level rest]

end

@[simp]
theorem compact_colon : Layout.compact.colon = ":" := rfl

theorem toList_bracket (level : Nat) (left right : String) (parts : List String) :
    (bracket .compact level left right parts).toList =
      left.toList ++ ([','].intercalate (parts.map String.toList) ++ right.toList) := by
  cases parts with
  | nil => simp [bracket]
  | cons part rest => simp [bracket, Layout.compact, String.toList_intercalate]

theorem toList_writeItems (items : List Value) :
    (writeItems .compact 0 items).map String.toList = charsOfItems items := by
  induction items with
  | nil => rfl
  | cons item rest ih => simp [writeItems, charsOfItems, chars, ih]

theorem toList_writeMembers (members : List (String × Value)) :
    (writeMembers .compact 0 members).map String.toList = charsOfMembers members := by
  induction members with
  | nil => rfl
  | cons member rest ih =>
    obtain ⟨name, value⟩ := member
    simp [writeMembers, charsOfMembers, chars, ih, quote]

theorem chars_list (items : List Value) :
    chars (.list items) = '[' :: ([','].intercalate (charsOfItems items) ++ [']']) := by
  rw [chars, writeAt, writeItems_compact, toList_bracket, toList_writeItems]
  rfl

theorem chars_record (members : List (String × Value)) :
    chars (.record members) = '{' :: ([','].intercalate (charsOfMembers members) ++ ['}']) := by
  rw [chars, writeAt, writeMembers_compact, toList_bracket, toList_writeMembers]
  rfl

def Opens (c : Char) : Prop :=
  isSpace c = false ∧ c ≠ ']' ∧ c ≠ '}'

instance (c : Char) : Decidable (Opens c) := inferInstanceAs (Decidable (_ ∧ _))

theorem opens_of_isDigit {c : Char} (h : c.isDigit) : Opens c := by
  refine ⟨?_, ?_, ?_⟩
  · by_contra space
    simp only [isSpace, Bool.not_eq_false, Bool.or_eq_true, decide_eq_true_eq] at space
    rcases space with ((rfl | rfl) | rfl) | rfl <;> exact absurd h (by decide)
  · rintro rfl
    exact absurd h (by decide)
  · rintro rfl
    exact absurd h (by decide)

theorem chars_int (n : Int) :
    chars (.int n) = (if n < 0 then ['-'] else []) ++ Nat.toDigits 10 n.natAbs := by
  have natural (k : Nat) : (toString k).toList = Nat.toDigits 10 k := by
    simp [toString, Nat.repr]
  cases n with
  | ofNat k =>
    have shown : chars (.int (.ofNat k)) = (toString k).toList := rfl
    rw [shown, natural]
    simp
  | negSucc k =>
    have shown : chars (.int (.negSucc k)) = ("-" ++ toString (k + 1)).toList := rfl
    rw [shown, String.toList_append, natural]
    simp [Int.negSucc_lt_zero]

theorem chars_real {x : Binary64} (h : x.isFinite) : ∃ negative size, x = .finite negative size ∧
    chars (.real x) =
      (if negative then ['-'] else []) ++ RealStyle.json.write size.shortest := by
  cases x with
  | finite negative size =>
    exact ⟨negative, size, rfl, by simp [chars, writeAt, writeReal, Binary64.isFinite, Binary64.write]⟩
  | infinite negative => cases h
  | nan => cases h

theorem chars_text (s : String) : chars (.text s) = '"' :: (escape s.toList ++ ['"']) := by
  simp [chars, writeAt, quote]

theorem opens_signed (negative : Bool) {c : Char} (more : List Char) (digit : c.isDigit) :
    ∃ first others, (if negative then ['-'] else []) ++ c :: more = first :: others ∧ Opens first ∧
      first ≠ '"' ∧ first ≠ '[' ∧ first ≠ '{' := by
  cases negative with
  | true => exact ⟨'-', c :: more, rfl, ⟨rfl, by decide, by decide⟩, by decide, by decide, by decide⟩
  | false =>
    refine ⟨c, more, rfl, opens_of_isDigit digit, ?_, ?_, ?_⟩ <;>
      (rintro rfl; exact absurd digit (by decide))

/-- What begins with no quote and no bracket is a word or a number. -/
theorem readValue_scalar (d : Dialect) (fuel depth : Nat) {c : Char} (more : List Char)
    (apart : c ≠ '"' ∧ c ≠ '[' ∧ c ≠ '{') :
    readValue d (fuel + 1) depth (c :: more) = readScalar d (c :: more) := by
  rw [readValue.eq_def]
  split <;> simp_all

theorem readValue_signed (d : Dialect) (fuel depth : Nat) (negative : Bool) {cs : List Char}
    (rest : List Char) (digits : ∃ c more, cs = c :: more ∧ c.isDigit) :
    readValue d (fuel + 1) depth (((if negative then ['-'] else []) ++ cs) ++ rest) =
      readNumber d negative (cs ++ rest) := by
  obtain ⟨c, more, rfl, digit⟩ := digits
  obtain ⟨first, others, same, -, apart⟩ := opens_signed negative (more ++ rest) digit
  rw [List.append_assoc, List.cons_append, same, readValue_scalar d fuel depth others apart, ← same,
    readScalar_digit d negative (more ++ rest) digit]

theorem head_natural (n : Nat) : ∃ c more, Nat.toDigits 10 n = c :: more ∧ c.isDigit := by
  cases parts : Nat.toDigits 10 n with
  | nil => exact absurd parts Nat.toDigits_ne_nil
  | cons c more => exact ⟨c, more, rfl, isDigit_toDigits (by rw [parts]; exact List.mem_cons_self)⟩

/-- The text of a value begins with no space and closes no bracket. -/
theorem opens_chars (v : Value) : ∃ c more, chars v = c :: more ∧ Opens c := by
  cases v with
  | null => exact ⟨'n', _, rfl, by decide⟩
  | bool b =>
    cases b with
    | true => exact ⟨'t', _, rfl, by decide⟩
    | false => exact ⟨'f', _, rfl, by decide⟩
  | int n =>
    obtain ⟨c, more, digits, digit⟩ := head_natural n.natAbs
    obtain ⟨first, others, same, opens, -⟩ := opens_signed (decide (n < 0)) more digit
    refine ⟨first, others, ?_, opens⟩
    rw [chars_int, digits, ← same]
    simp
  | real x =>
    cases finite : x.isFinite with
    | true =>
      obtain ⟨negative, size, rfl, shown⟩ := chars_real finite
      obtain ⟨c, more, digits, digit⟩ := head_decimal size.shortest
      obtain ⟨first, others, same, opens, -⟩ := opens_signed negative more digit
      exact ⟨first, others, by rw [shown, digits, same], opens⟩
    | false =>
      have shown : chars (.real x) = chars .null := by simp [chars, writeAt, writeReal, finite]
      exact ⟨'n', _, shown, by decide⟩
  | text s => exact ⟨'"', _, chars_text s, by decide⟩
  | bytes b => exact ⟨'"', _, chars_text ((String.fromUTF8? ⟨b.toArray⟩).getD ""), by decide⟩
  | list items => exact ⟨'[', _, chars_list items, by decide⟩
  | record members => exact ⟨'{', _, chars_record members, by decide⟩

theorem skipSpace_mark {c : Char} (rest : List Char) (h : isSpace c = false) :
    skipSpace (c :: rest) = c :: rest := by
  simp [skipSpace, h]

theorem ValueEnds.comma (rest : List Char) : ValueEnds (',' :: rest) := by
  rintro c ⟨⟩
  exact .inl rfl

theorem ValueEnds.array (rest : List Char) : ValueEnds (']' :: rest) := by
  rintro c ⟨⟩
  exact .inr (.inl rfl)

theorem ValueEnds.object (rest : List Char) : ValueEnds ('}' :: rest) := by
  rintro c ⟨⟩
  exact .inr (.inr rfl)

theorem ValueEnds.nil : ValueEnds [] := nofun

theorem length_chars_pos (v : Value) : 0 < (chars v).length := by
  obtain ⟨c, more, same, -⟩ := opens_chars v
  rw [same]
  exact Nat.succ_pos _

theorem checkDepth_within {d : Dialect} {bracket : Bracket} {depth : Nat} (isEmpty : Bool)
    (h : depth < d.depthLimit) : d.checkDepth bracket isEmpty (depth + 1) = .ok () := by
  unfold Dialect.checkDepth
  rw [if_pos (Nat.succ_le_of_lt h)]

theorem readValue_leaf (d : Dialect) {v : Value} {depth : Nat} (fuel : Nat) {rest : List Char}
    (leaf : v.isContainer = false) (h : Readable d depth v) (ends : ValueEnds rest) :
    readValue d (fuel + 1) depth (chars v ++ rest) = .ok (v, rest) := by
  cases v with
  | null =>
    have word : chars .null ++ rest = 'n' :: 'u' :: 'l' :: 'l' :: rest := rfl
    rw [word, readValue_scalar d fuel depth _ (by decide)]
    rfl
  | bool b =>
    cases b with
    | true =>
      have word : chars (.bool true) ++ rest = 't' :: 'r' :: 'u' :: 'e' :: rest := rfl
      rw [word, readValue_scalar d fuel depth _ (by decide)]
      rfl
    | false =>
      have word : chars (.bool false) ++ rest = 'f' :: 'a' :: 'l' :: 's' :: 'e' :: rest := rfl
      rw [word, readValue_scalar d fuel depth _ (by decide)]
      rfl
  | int n =>
    have sign : (if decide (n < 0) = true then -(n.natAbs : Int) else (n.natAbs : Int)) = n := by
      by_cases negative : n < 0
      · rw [if_pos (decide_eq_true negative)]
        omega
      · rw [if_neg (by simpa using negative)]
        omega
    have number := readNumber_toDigits d (decide (n < 0)) h ends
    rw [sign, ← readValue_signed d fuel depth _ rest (head_natural n.natAbs)] at number
    rw [chars_int]
    simpa using number
  | real x =>
    obtain ⟨negative, size, rfl, shown⟩ := chars_real h
    rw [shown, readValue_signed d fuel depth negative rest (head_decimal size.shortest),
      readNumber_shortest d negative size ends]
  | text s =>
    have read := readChars_quote d s rest (Nat.lt_succ_self _)
    rw [chars_text, List.cons_append, List.append_assoc, List.singleton_append, readValue.eq_def]
    simp only [Nat.succ_eq_add_one] at read
    simp only [read, Except.map]
  | bytes b => exact h.elim
  | list items => cases leaf
  | record members => cases leaf

def ReadsBack (d : Dialect) (v : Value) : Prop :=
  ∀ depth fuel rest, Readable d depth v → ValueEnds rest → (chars v).length ≤ fuel →
    readValue d fuel depth (chars v ++ rest) = .ok (v, rest)

def ItemsReadBack (d : Dialect) (items : List Value) : Prop :=
  ∀ depth fuel done rest, ReadableItems d depth items → items ≠ [] →
    ([','].intercalate (charsOfItems items)).length < fuel →
    readItems d fuel depth done ([','].intercalate (charsOfItems items) ++ ']' :: rest) =
      .ok (done.reverse ++ items, rest)

def MembersReadBack (d : Dialect) (members : List (String × Value)) : Prop :=
  ∀ depth fuel done rest, ReadableMembers d depth members → members ≠ [] →
    ([','].intercalate (charsOfMembers members)).length < fuel →
    readMembers d fuel depth done ([','].intercalate (charsOfMembers members) ++ '}' :: rest) =
      .ok (done.reverse ++ members, rest)

theorem readsBack_leaf (d : Dialect) {v : Value} (leaf : v.isContainer = false) : ReadsBack d v := by
  intro depth fuel rest h ends long
  have positive := length_chars_pos v
  obtain ⟨fuel, rfl⟩ := Nat.exists_eq_succ_of_ne_zero (by omega : fuel ≠ 0)
  exact readValue_leaf d fuel leaf h ends

theorem intercalate_opens {first : List Char} (others : List (List Char)) (tail : List Char)
    (h : ∃ c more, first = c :: more ∧ Opens c) :
    ∃ c more, [','].intercalate (first :: others) ++ tail = c :: more ∧ Opens c := by
  obtain ⟨c, more, rfl, opens⟩ := h
  cases others with
  | nil => exact ⟨c, more ++ tail, by simp, opens⟩
  | cons other others =>
    exact ⟨c, more ++ ([','] ++ [','].intercalate (other :: others)) ++ tail,
      by simp [List.intercalate_cons_cons], opens⟩

theorem intercalate_append (first other : List Char) (others : List (List Char))
    (tail : List Char) : [','].intercalate (first :: other :: others) ++ tail =
      first ++ ',' :: ([','].intercalate (other :: others) ++ tail) := by
  simp [List.intercalate_cons_cons]

theorem length_intercalate (first other : List Char) (others : List (List Char)) :
    ([','].intercalate (first :: other :: others)).length =
      first.length + 1 + ([','].intercalate (other :: others)).length := by
  simp only [List.intercalate_cons_cons, List.length_append, List.length_singleton]

theorem itemsReadBack_cons (d : Dialect) {item : Value} {items : List Value}
    (first : ReadsBack d item) (others : ItemsReadBack d items) :
    ItemsReadBack d (item :: items) := by
  intro depth fuel done rest h _ long
  obtain ⟨readable, more_readable⟩ := h
  obtain ⟨fuel, rfl⟩ := Nat.exists_eq_succ_of_ne_zero (by omega : fuel ≠ 0)
  cases items with
  | nil =>
    simp only [charsOfItems, List.intercalate_singleton] at long ⊢
    have value := first depth fuel (']' :: rest) readable (.array rest) (Nat.le_of_lt_succ long)
    simp only [readItems, value, skipSpace_mark (c := ']') rest rfl]
    simp
  | cons next items =>
    rw [charsOfItems, charsOfItems, length_intercalate] at long
    obtain ⟨c, more, same, opens⟩ := intercalate_opens (charsOfItems items) (']' :: rest)
      (opens_chars next)
    have value := first depth fuel
      (',' :: ([','].intercalate (charsOfItems (next :: items)) ++ ']' :: rest)) readable
      (.comma _) (by omega)
    have items_read := others depth fuel (item :: done) rest more_readable (by simp)
      (by rw [charsOfItems]; omega)
    rw [charsOfItems, charsOfItems, intercalate_append, readItems]
    rw [charsOfItems, same] at value items_read
    rw [same, value]
    simp only [skipSpace_mark (c := ',') _ rfl, skipSpace_mark more opens.1, items_read]
    simp

theorem readsBack_list (d : Dialect) {items : List Value} (h : ItemsReadBack d items) :
    ReadsBack d (.list items) := by
  intro depth fuel rest readable _ long
  obtain ⟨within, readable⟩ := readable
  simp only [chars_list, List.length_cons, List.length_append] at long
  obtain ⟨fuel, rfl⟩ := Nat.exists_eq_succ_of_ne_zero (by omega : fuel ≠ 0)
  cases items with
  | nil =>
    have text : chars (.list []) ++ rest = '[' :: ']' :: rest := rfl
    rw [text, readValue.eq_def]
    simp only [skipSpace_mark (c := ']') rest rfl, checkDepth_within _ within]
  | cons item items =>
    obtain ⟨c, more, same, opens⟩ := intercalate_opens (charsOfItems items) (']' :: rest)
      (opens_chars item)
    have items_read := h (depth + 1) fuel [] rest readable (by simp) (by omega)
    rw [chars_list, List.cons_append, List.append_assoc, List.singleton_append, readValue.eq_def]
    rw [charsOfItems, same] at items_read ⊢
    simp only [skipSpace_mark more opens.1, checkDepth_within _ within]
    split
    · exact absurd (List.cons.inj ‹_›).1 opens.2.1
    · simp [items_read]

/-- A member up to what stands behind its value. -/
theorem readMembers_front (d : Dialect) (name : String) (value : Value) (tail : List Char) :
    readChars d ((escape name.toList ++ '"' :: ':' :: (chars value ++ tail)).length + 1) []
        (escape name.toList ++ '"' :: ':' :: (chars value ++ tail)) =
      .ok (name, ':' :: (chars value ++ tail)) ∧
      skipSpace (chars value ++ tail) = chars value ++ tail := by
  obtain ⟨c, more, same, opens⟩ := opens_chars value
  refine ⟨readChars_quote d name (':' :: (chars value ++ tail)) (Nat.lt_succ_self _), ?_⟩
  rw [same, List.cons_append, skipSpace_mark _ opens.1]

theorem readMembers_last (d : Dialect) {fuel depth : Nat} (done : List (String × Value))
    (name : String) {value : Value} {rest : List Char}
    (read : readValue d fuel depth (chars value ++ '}' :: rest) = .ok (value, '}' :: rest)) :
    readMembers d (fuel + 1) depth done
        ('"' :: (escape name.toList ++ '"' :: ':' :: (chars value ++ '}' :: rest))) =
      .ok (((name, value) :: done).reverse, rest) := by
  obtain ⟨name_read, front⟩ := readMembers_front d name value ('}' :: rest)
  rw [readMembers.eq_def]
  simp only [name_read, skipSpace_mark (c := ':') _ rfl, front, read,
    skipSpace_mark (c := '}') rest rfl]

theorem readMembers_next (d : Dialect) {fuel depth : Nat} (done : List (String × Value))
    (name : String) {value : Value} {rest : List Char}
    (read : readValue d fuel depth (chars value ++ ',' :: rest) = .ok (value, ',' :: rest)) :
    readMembers d (fuel + 1) depth done
        ('"' :: (escape name.toList ++ '"' :: ':' :: (chars value ++ ',' :: rest))) =
      readMembers d fuel depth ((name, value) :: done) (skipSpace rest) := by
  obtain ⟨name_read, front⟩ := readMembers_front d name value (',' :: rest)
  rw [readMembers.eq_def]
  simp only [name_read, skipSpace_mark (c := ':') _ rfl, front, read,
    skipSpace_mark (c := ',') rest rfl]

theorem membersReadBack_cons (d : Dialect) (name : String) {value : Value}
    {members : List (String × Value)} (first : ReadsBack d value)
    (others : MembersReadBack d members) : MembersReadBack d ((name, value) :: members) := by
  intro depth fuel done rest h _ long
  obtain ⟨readable, more_readable⟩ := h
  obtain ⟨fuel, rfl⟩ := Nat.exists_eq_succ_of_ne_zero (by omega : fuel ≠ 0)
  cases members with
  | nil =>
    simp only [charsOfMembers, List.intercalate_singleton, List.length_cons,
      List.length_append] at long ⊢
    have read := first depth fuel ('}' :: rest) readable (.object rest) (by omega)
    have member := readMembers_last d done name read
    simpa using member
  | cons next members =>
    obtain ⟨other, value'⟩ := next
    rw [charsOfMembers, charsOfMembers, length_intercalate] at long
    simp only [List.length_cons, List.length_append] at long
    have read := first depth fuel
      (',' :: ([','].intercalate (charsOfMembers ((other, value') :: members)) ++ '}' :: rest))
      readable (.comma _) (by omega)
    have members_read := others depth fuel ((name, value) :: done) rest more_readable (by simp)
      (by rw [charsOfMembers]; omega)
    have member := readMembers_next d done name read
    obtain ⟨c, more, same, opens⟩ := intercalate_opens (charsOfMembers members) ('}' :: rest)
      ⟨'"', escape other.toList ++ '"' :: ':' :: chars value', rfl, (by decide : Opens '"')⟩
    rw [charsOfMembers, same] at members_read member
    rw [skipSpace_mark more opens.1, members_read] at member
    rw [charsOfMembers, charsOfMembers, intercalate_append, same]
    simpa using member

theorem readsBack_record (d : Dialect) {members : List (String × Value)}
    (h : MembersReadBack d members) : ReadsBack d (.record members) := by
  intro depth fuel rest readable _ long
  obtain ⟨within, readable⟩ := readable
  simp only [chars_record, List.length_cons, List.length_append] at long
  obtain ⟨fuel, rfl⟩ := Nat.exists_eq_succ_of_ne_zero (by omega : fuel ≠ 0)
  cases members with
  | nil =>
    have text : chars (.record []) ++ rest = '{' :: '}' :: rest := rfl
    rw [text, readValue.eq_def]
    simp only [skipSpace_mark (c := '}') rest rfl, checkDepth_within _ within]
  | cons member members =>
    obtain ⟨name, value⟩ := member
    obtain ⟨c, more, same, opens⟩ := intercalate_opens (charsOfMembers members) ('}' :: rest)
      ⟨'"', escape name.toList ++ '"' :: ':' :: chars value, rfl, (by decide : Opens '"')⟩
    have members_read := h (depth + 1) fuel [] rest readable (by simp) (by omega)
    rw [chars_record, List.cons_append, List.append_assoc, List.singleton_append, readValue.eq_def]
    rw [charsOfMembers, same] at members_read ⊢
    simp only [skipSpace_mark more opens.1, checkDepth_within _ within]
    split
    · exact absurd (List.cons.inj ‹_›).1 opens.2.2
    · simp [members_read]

mutual

theorem readsBack (d : Dialect) : ∀ v, ReadsBack d v
  | .list items => readsBack_list d (itemsReadBack d items)
  | .record members => readsBack_record d (membersReadBack d members)
  | .null => readsBack_leaf d rfl
  | .bool _ => readsBack_leaf d rfl
  | .int _ => readsBack_leaf d rfl
  | .real _ => readsBack_leaf d rfl
  | .text _ => readsBack_leaf d rfl
  | .bytes _ => readsBack_leaf d rfl

theorem itemsReadBack (d : Dialect) : ∀ items, ItemsReadBack d items
  | [] => fun _ _ _ _ _ nonempty => absurd rfl nonempty
  | item :: items => itemsReadBack_cons d (readsBack d item) (itemsReadBack d items)

theorem membersReadBack (d : Dialect) : ∀ members, MembersReadBack d members
  | [] => fun _ _ _ _ _ nonempty => absurd rfl nonempty
  | (name, value) :: members =>
    membersReadBack_cons d name (readsBack d value) (membersReadBack d members)

end

/-- The text of a readable value is read as that value. -/
theorem read_write (d : Dialect) {v : Value} (h : Readable d 0 v) : read d (write v) = .ok v := by
  obtain ⟨c, more, same, opens⟩ := opens_chars v
  have text : (write v).toList = chars v := rfl
  have value := readsBack d v 0 ((chars v).length + 1) [] h .nil (Nat.le_succ _)
  rw [List.append_nil, same] at value
  simp only [read, text, same, skipSpace_mark more opens.1, value]
  rfl

end ControlPanel.Json
