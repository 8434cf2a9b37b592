import ControlPanel.Proofs.JsonText

/-!
# What JSON cannot hold

Reading yields no whole number that is too long to be read again. A text with such a number is
refused as a whole, wherever the number stands.
-/
namespace ControlPanel.Json

mutual

def Short : Value → Prop
  | .int n => n.natAbs < 10 ^ digitLimit
  | .list items => ShortItems items
  | .record members => ShortMembers members
  | _ => True

def ShortItems : List Value → Prop
  | [] => True
  | item :: rest => Short item ∧ ShortItems rest

def ShortMembers : List (String × Value) → Prop
  | [] => True
  | (_, value) :: rest => Short value ∧ ShortMembers rest

end

theorem shortItems_iff {items : List Value} : ShortItems items ↔ ∀ v ∈ items, Short v := by
  induction items with
  | nil => simp [ShortItems]
  | cons item rest ih => simp [ShortItems, ih]

theorem shortMembers_iff {members : List (String × Value)} :
    ShortMembers members ↔ ∀ member ∈ members, Short member.2 := by
  induction members with
  | nil => simp [ShortMembers]
  | cons member rest ih => simp [ShortMembers, ih]

theorem takeWhole_digits {cs whole rest : List Char} (h : takeWhole cs = (whole, rest)) :
    ∀ c ∈ whole, c.isDigit := by
  unfold takeWhole at h
  split at h
  · cases h
    simp
  · cases h
    exact fun c hc => List.mem_takeWhile_imp hc

theorem short_of_readNumber {d : Dialect} {negative : Bool} {cs rest : List Char} {v : Value}
    (h : readNumber d negative cs = .ok (v, rest)) : Short v := by
  rcases parts : takeWhole cs with ⟨whole, after⟩
  have digits := takeWhole_digits parts
  simp only [readNumber, parts, bind, Except.bind, pure, Except.pure] at h
  split at h
  · cases h
  · rcases fraction : takeFraction after with ⟨fraction?, after'⟩
    rcases exponent : takeExponent after' with ⟨exponent?, after''⟩
    simp only [fraction, exponent] at h
    split at h
    · cases h
    · rename_i checked
      cases h
      unfold numberValue
      split
      · -- Only whole numbers are bounded by their length.
        have length : whole.length ≤ digitLimit := by
          simp only [Dialect.checkLength, Option.isNone_none, Bool.and_self, if_true] at checked
          split at checked
          · assumption
          · split at checked <;> cases checked
        have small := Nat.lt_of_lt_of_le (digitsValue_lt digits)
          (Nat.pow_le_pow_right (by decide) length)
        cases negative <;> simpa [Short] using small
      · trivial

theorem short_of_readScalar {d : Dialect} {cs rest : List Char} {v : Value}
    (h : readScalar d cs = .ok (v, rest)) : Short v := by
  unfold readScalar at h
  split at h
  · rename_i found word
    cases h
    obtain ⟨⟨text, literal⟩, mem, taken⟩ := List.exists_of_findSome?_eq_some word
    obtain ⟨after, -, same⟩ := Option.map_eq_some_iff.mp taken
    cases same
    simp only [literals, List.mem_cons, Prod.mk.injEq, List.not_mem_nil, or_false] at mem
    rcases mem with ⟨-, rfl⟩ | ⟨-, rfl⟩ | ⟨-, rfl⟩ | ⟨-, rfl⟩ | ⟨-, rfl⟩ | ⟨-, rfl⟩ <;> trivial
  · split at h <;> exact short_of_readNumber h

mutual

theorem short_of_readValue (d : Dialect) : ∀ (fuel depth : Nat) (cs rest : List Char) (v : Value),
    readValue d fuel depth cs = .ok (v, rest) → Short v
  | 0, _, _, _, _, h => by
    rw [readValue] at h
    cases h
  | fuel + 1, depth, cs, rest, v, h => by
    rw [readValue.eq_def] at h
    dsimp only at h
    split at h
    · unfold Except.map at h
      split at h
      · cases h
      · cases h
        trivial
    · split at h
      · cases h
      · split at h
        · cases h
          trivial
        · split at h
          · rename_i items after read
            cases h
            exact shortItems_iff.mpr (short_of_readItems d fuel _ [] _ _ _ nofun read)
          · cases h
    · split at h
      · cases h
      · split at h
        · cases h
          trivial
        · split at h
          · rename_i members after read
            cases h
            exact shortMembers_iff.mpr (short_of_readMembers d fuel _ [] _ _ _ nofun read)
          · cases h
    · exact short_of_readScalar h

theorem short_of_readItems (d : Dialect) : ∀ (fuel depth : Nat) (done : List Value)
    (cs rest : List Char) (items : List Value), (∀ v ∈ done, Short v) →
    readItems d fuel depth done cs = .ok (items, rest) → ∀ v ∈ items, Short v
  | 0, _, _, _, _, _, _, h => by
    rw [readItems] at h
    cases h
  | fuel + 1, depth, done, cs, rest, items, short, h => by
    rw [readItems] at h
    split at h
    · cases h
    · rename_i item after read
      have more : ∀ v ∈ item :: done, Short v :=
        List.forall_mem_cons.mpr ⟨short_of_readValue d fuel _ _ _ _ read, short⟩
      split at h
      · exact short_of_readItems d fuel _ _ _ _ _ more h
      · cases h
        exact fun v hv => more v (List.mem_reverse.mp hv)
      · cases h

theorem short_of_readMembers (d : Dialect) : ∀ (fuel depth : Nat) (done : List (String × Value))
    (cs rest : List Char) (members : List (String × Value)), (∀ member ∈ done, Short member.2) →
    readMembers d fuel depth done cs = .ok (members, rest) → ∀ member ∈ members, Short member.2
  | 0, _, _, _, _, _, _, h => by
    rw [readMembers] at h
    cases h
  | fuel + 1, depth, done, cs, rest, members, short, h => by
    rw [readMembers.eq_def] at h
    dsimp only at h
    split at h
    · split at h
      · cases h
      · split at h
        · split at h
          · cases h
          · rename_i value after read
            have more (name : String) : ∀ member ∈ (name, value) :: done, Short member.2 :=
              List.forall_mem_cons.mpr ⟨short_of_readValue d fuel _ _ _ _ read, short⟩
            split at h
            · exact short_of_readMembers d fuel _ _ _ _ _ (more _) h
            · cases h
              exact fun member hm => more _ member (List.mem_reverse.mp hm)
            · cases h
        · cases h
    · cases h

end

theorem short_of_read {d : Dialect} {s : String} {v : Value} (h : read d s = .ok v) : Short v := by
  unfold read at h
  dsimp only at h
  split at h
  · cases h
  · rename_i value after found
    split at h
    · cases h
      exact short_of_readValue d _ _ _ _ _ found
    · cases h

mutual

/-- A value inside `depth` brackets with a whole number that is too long to be read, and before it
nothing that could not be read. -/
def Overlong (d : Dialect) (depth : Nat) : Value → Prop
  | .int n => 10 ^ digitLimit ≤ n.natAbs
  | .list items => OverlongItems d (depth + 1) items
  | .record members => OverlongMembers d (depth + 1) members
  | _ => False

def OverlongItems (d : Dialect) (depth : Nat) : List Value → Prop
  | [] => False
  | item :: rest => Overlong d depth item ∨ Readable d depth item ∧ OverlongItems d depth rest

def OverlongMembers (d : Dialect) (depth : Nat) : List (String × Value) → Prop
  | [] => False
  | (_, value) :: rest =>
    Overlong d depth value ∨ Readable d depth value ∧ OverlongMembers d depth rest

end

def Refuses (d : Dialect) (v : Value) : Prop :=
  ∀ depth fuel rest, Overlong d depth v → ValueEnds rest → (chars v).length ≤ fuel →
    ∃ fault, readValue d fuel depth (chars v ++ rest) = .error fault

def ItemsRefuse (d : Dialect) (items : List Value) : Prop :=
  ∀ depth fuel done rest, OverlongItems d depth items →
    ([','].intercalate (charsOfItems items)).length < fuel →
    ∃ fault, readItems d fuel depth done ([','].intercalate (charsOfItems items) ++ ']' :: rest) =
      .error fault

def MembersRefuse (d : Dialect) (members : List (String × Value)) : Prop :=
  ∀ depth fuel done rest, OverlongMembers d depth members →
    ([','].intercalate (charsOfMembers members)).length < fuel →
    ∃ fault, readMembers d fuel depth done
      ([','].intercalate (charsOfMembers members) ++ '}' :: rest) = .error fault

theorem readNumber_overlong (d : Dialect) (negative : Bool) {n : Nat} {rest : List Char}
    (long : 10 ^ digitLimit ≤ n) (ends : ValueEnds rest) :
    ∃ fault, readNumber d negative (Nat.toDigits 10 n ++ rest) = .error fault := by
  have digits : ∀ c ∈ Nat.toDigits 10 n, c.isDigit := fun c => isDigit_toDigits
  have whole := takeWhole_append digits (lead_toDigits n) ends.digits
  have length : ¬(Nat.toDigits 10 n).length ≤ digitLimit := by
    rw [Nat.length_toDigits_le_iff (by decide) (by decide), Nat.not_lt]
    exact long
  simp only [readNumber, whole, takeFraction_ended ends, takeExponent_none ends,
    Dialect.checkLength, if_neg length, List.isEmpty_iff, Nat.toDigits_ne_nil, if_false]
  cases d <;> exact ⟨_, rfl⟩

theorem refuses_int (d : Dialect) (n : Int) : Refuses d (.int n) := by
  intro depth fuel rest long ends enough
  obtain ⟨fault, refused⟩ := readNumber_overlong d (decide (n < 0)) long ends
  have positive := length_chars_pos (.int n)
  obtain ⟨fuel, rfl⟩ := Nat.exists_eq_succ_of_ne_zero (by omega : fuel ≠ 0)
  rw [← readValue_signed d fuel depth _ rest (head_natural n.natAbs)] at refused
  refine ⟨fault, ?_⟩
  rw [chars_int]
  simpa using refused

theorem itemsRefuse_cons (d : Dialect) {item : Value} {items : List Value} (first : Refuses d item)
    (others : ItemsRefuse d items) : ItemsRefuse d (item :: items) := by
  intro depth fuel done rest h long
  obtain ⟨fuel, rfl⟩ := Nat.exists_eq_succ_of_ne_zero (by omega : fuel ≠ 0)
  have refused {tail : List Char} (overlong : Overlong d depth item) (ends : ValueEnds tail)
      (enough : (chars item).length ≤ fuel) :
      ∃ fault, readItems d (fuel + 1) depth done (chars item ++ tail) = .error fault := by
    obtain ⟨fault, read⟩ := first depth fuel tail overlong ends enough
    exact ⟨fault, by rw [readItems, read]⟩
  cases items with
  | nil =>
    simp only [charsOfItems, List.intercalate_singleton] at long ⊢
    rcases h with overlong | ⟨-, none_left⟩
    · exact refused overlong (.array rest) (Nat.le_of_lt_succ long)
    · exact none_left.elim
  | cons next items =>
    rw [charsOfItems, charsOfItems, length_intercalate] at long
    rw [charsOfItems, charsOfItems, intercalate_append]
    rcases h with overlong | ⟨readable, later⟩
    · exact refused overlong (.comma _) (by omega)
    · obtain ⟨c, more, same, opens⟩ := intercalate_opens (charsOfItems items) (']' :: rest)
        (opens_chars next)
      obtain ⟨fault, others_refused⟩ := others depth fuel (item :: done) rest later
        (by rw [charsOfItems]; omega)
      have value := readsBack d item depth fuel (',' :: c :: more) readable (.comma _) (by omega)
      rw [charsOfItems, same] at others_refused
      rw [same, readItems, value]
      simp only [skipSpace_mark (c := ',') _ rfl, skipSpace_mark more opens.1]
      exact ⟨fault, others_refused⟩

theorem refuses_list (d : Dialect) {items : List Value} (h : ItemsRefuse d items) :
    Refuses d (.list items) := by
  intro depth fuel rest overlong _ long
  simp only [chars_list, List.length_cons, List.length_append] at long
  obtain ⟨fuel, rfl⟩ := Nat.exists_eq_succ_of_ne_zero (by omega : fuel ≠ 0)
  cases items with
  | nil => exact overlong.elim
  | cons item items =>
    obtain ⟨c, more, same, opens⟩ := intercalate_opens (charsOfItems items) (']' :: rest)
      (opens_chars item)
    obtain ⟨fault, refused⟩ := h (depth + 1) fuel [] rest overlong (by omega)
    rw [chars_list, List.cons_append, List.append_assoc, List.singleton_append, readValue.eq_def]
    rw [charsOfItems, same] at refused ⊢
    simp only [skipSpace_mark more opens.1]
    split
    · exact ⟨_, rfl⟩
    · split
      · exact absurd (List.cons.inj ‹_›).1 opens.2.1
      · rw [refused]
        exact ⟨fault, rfl⟩

theorem membersRefuse_cons (d : Dialect) (name : String) {value : Value}
    {members : List (String × Value)} (first : Refuses d value) (others : MembersRefuse d members) :
    MembersRefuse d ((name, value) :: members) := by
  intro depth fuel done rest h long
  obtain ⟨fuel, rfl⟩ := Nat.exists_eq_succ_of_ne_zero (by omega : fuel ≠ 0)
  have refused {tail : List Char} (overlong : Overlong d depth value) (ends : ValueEnds tail)
      (enough : (chars value).length ≤ fuel) : ∃ fault, readMembers d (fuel + 1) depth done
        ('"' :: (escape name.toList ++ '"' :: ':' :: (chars value ++ tail))) = .error fault := by
    obtain ⟨fault, read⟩ := first depth fuel tail overlong ends enough
    obtain ⟨name_read, front⟩ := readMembers_front d name value tail
    refine ⟨fault, ?_⟩
    rw [readMembers.eq_def]
    simp only [name_read, skipSpace_mark (c := ':') _ rfl, front, read]
  cases members with
  | nil =>
    simp only [charsOfMembers, List.intercalate_singleton, List.length_cons,
      List.length_append] at long ⊢
    rcases h with overlong | ⟨-, none_left⟩
    · simpa using refused overlong (.object rest) (by omega)
    · exact none_left.elim
  | cons next members =>
    obtain ⟨other, value'⟩ := next
    rw [charsOfMembers, charsOfMembers, length_intercalate] at long
    simp only [List.length_cons, List.length_append] at long
    rw [charsOfMembers, charsOfMembers, intercalate_append]
    rcases h with overlong | ⟨readable, later⟩
    · simpa using refused overlong (.comma _) (by omega)
    · obtain ⟨c, more, same, opens⟩ := intercalate_opens (charsOfMembers members) ('}' :: rest)
        ⟨'"', escape other.toList ++ '"' :: ':' :: chars value', rfl, (by decide : Opens '"')⟩
      obtain ⟨fault, others_refused⟩ := others depth fuel ((name, value) :: done) rest later
        (by rw [charsOfMembers]; omega)
      have read := readsBack d value depth fuel (',' :: c :: more) readable (.comma _) (by omega)
      have member := readMembers_next d done name read
      rw [charsOfMembers, same] at others_refused
      rw [skipSpace_mark more opens.1, others_refused] at member
      refine ⟨fault, ?_⟩
      rw [same]
      simpa using member

theorem refuses_record (d : Dialect) {members : List (String × Value)}
    (h : MembersRefuse d members) : Refuses d (.record members) := by
  intro depth fuel rest overlong _ long
  simp only [chars_record, List.length_cons, List.length_append] at long
  obtain ⟨fuel, rfl⟩ := Nat.exists_eq_succ_of_ne_zero (by omega : fuel ≠ 0)
  cases members with
  | nil => exact overlong.elim
  | cons member members =>
    obtain ⟨name, value⟩ := member
    obtain ⟨c, more, same, opens⟩ := intercalate_opens (charsOfMembers members) ('}' :: rest)
      ⟨'"', escape name.toList ++ '"' :: ':' :: chars value, rfl, (by decide : Opens '"')⟩
    obtain ⟨fault, refused⟩ := h (depth + 1) fuel [] rest overlong (by omega)
    rw [chars_record, List.cons_append, List.append_assoc, List.singleton_append, readValue.eq_def]
    rw [charsOfMembers, same] at refused ⊢
    simp only [skipSpace_mark more opens.1]
    split
    · exact ⟨_, rfl⟩
    · split
      · exact absurd (List.cons.inj ‹_›).1 opens.2.2
      · rw [refused]
        exact ⟨fault, rfl⟩

mutual

theorem refuses (d : Dialect) : ∀ v, Refuses d v
  | .int n => refuses_int d n
  | .list items => refuses_list d (itemsRefuse d items)
  | .record members => refuses_record d (membersRefuse d members)
  | .null => fun _ _ _ h => h.elim
  | .bool _ => fun _ _ _ h => h.elim
  | .real _ => fun _ _ _ h => h.elim
  | .text _ => fun _ _ _ h => h.elim
  | .bytes _ => fun _ _ _ h => h.elim

theorem itemsRefuse (d : Dialect) : ∀ items, ItemsRefuse d items
  | [] => fun _ _ _ _ h => h.elim
  | item :: items => itemsRefuse_cons d (refuses d item) (itemsRefuse d items)

theorem membersRefuse (d : Dialect) : ∀ members, MembersRefuse d members
  | [] => fun _ _ _ _ h => h.elim
  | (name, value) :: members =>
    membersRefuse_cons d name (refuses d value) (membersRefuse d members)

end

/-- The text of an overlong value is refused. -/
theorem read_overlong (d : Dialect) {v : Value} (h : Overlong d 0 v) :
    ∃ fault, read d (write v) = .error fault := by
  obtain ⟨c, more, same, opens⟩ := opens_chars v
  have text : (write v).toList = chars v := rfl
  obtain ⟨fault, refused⟩ := refuses d v 0 ((chars v).length + 1) [] h .nil (Nat.le_succ _)
  rw [List.append_nil, same] at refused
  refine ⟨fault, ?_⟩
  simp only [read, text, same, skipSpace_mark more opens.1, refused]

end ControlPanel.Json
