import ControlPanel.Archive
import ControlPanel.Proofs.JsonText

/-!
# JSON on one line

What is written as JSON has no control characters: texts have theirs escaped, and nothing stands
between the marks and numbers. So a medium that treats line ends in its own way keeps it as it is.
-/
namespace ControlPanel.Json

def Visible (c : Char) : Prop := 32 ≤ c.toNat

instance (c : Char) : Decidable (Visible c) := inferInstanceAs (Decidable (_ ≤ _))

def AllVisible (cs : List Char) : Prop := ∀ c ∈ cs, Visible c

instance (cs : List Char) : Decidable (AllVisible cs) :=
  List.decidableBAll Visible cs

@[simp]
theorem allVisible_nil : AllVisible [] := fun _ none_there => nomatch none_there

@[simp]
theorem allVisible_cons {c : Char} {cs : List Char} :
    AllVisible (c :: cs) ↔ Visible c ∧ AllVisible cs :=
  List.forall_mem_cons

@[simp]
theorem allVisible_append {cs ds : List Char} :
    AllVisible (cs ++ ds) ↔ AllVisible cs ∧ AllVisible ds :=
  List.forall_mem_append

theorem allVisible_intercalate {parts : List (List Char)} (h : ∀ part ∈ parts, AllVisible part) :
    AllVisible ([','].intercalate parts) := by
  induction parts with
  | nil => exact allVisible_nil
  | cons first rest ih =>
    obtain ⟨own, others⟩ := List.forall_mem_cons.mp h
    cases rest with
    | nil => simpa using own
    | cons other rest =>
      have tail := ih others
      have whole := intercalate_append first other rest []
      rw [List.append_nil, List.append_nil] at whole
      rw [whole]
      simp [own, tail, Visible]

theorem visible_of_isDigit {c : Char} (h : c.isDigit) : Visible c :=
  Nat.le_trans (by decide : 32 ≤ '0'.toNat) (Char.isDigit_iff_toNat.mp h).1

theorem allVisible_toDigits (n : Nat) : AllVisible (Nat.toDigits 10 n) :=
  fun _ h => visible_of_isDigit (isDigit_toDigits h)

theorem allVisible_replicate {c : Char} (h : Visible c) (n : Nat) :
    AllVisible (List.replicate n c) := by
  intro d hd
  rwa [List.eq_of_mem_replicate hd]

theorem allVisible_hexDigits (width n : Nat) : AllVisible (Text.hexDigits width n) := by
  induction width generalizing n with
  | zero => exact allVisible_nil
  | succ width ih =>
    have digit : ∀ k < 16, Visible (Text.hexDigit k) := by decide
    exact allVisible_append.mpr
      ⟨ih _, allVisible_cons.mpr ⟨digit _ (Nat.mod_lt n (by decide)), allVisible_nil⟩⟩

theorem allVisible_exponentText (style : RealStyle) (e : Int) :
    AllVisible (style.exponentText e) := by
  have sign : Visible (if e < 0 then '-' else '+') := by split <;> decide
  refine allVisible_cons.mpr ⟨by decide, allVisible_cons.mpr ⟨sign, allVisible_append.mpr ?_⟩⟩
  exact ⟨allVisible_replicate (by decide) _, allVisible_toDigits _⟩

theorem allVisible_write (style : RealStyle) (d : Decimal) : AllVisible (style.write d) := by
  have digits : AllVisible d.digits := allVisible_toDigits _
  have zeros (n : Nat) : AllVisible (List.replicate n '0') := allVisible_replicate (by decide) n
  have point : Visible '.' := by decide
  have zero : Visible '0' := by decide
  unfold RealStyle.write
  dsimp only
  split
  · split
    · rename_i digit same
      rw [same] at digits
      exact allVisible_cons.mpr ⟨(allVisible_cons.mp digits).1, allVisible_exponentText style _⟩
    · rename_i digit rest _ same
      rw [same] at digits
      obtain ⟨first, others⟩ := allVisible_cons.mp digits
      simp [first, others, point, allVisible_exponentText]
    · exact allVisible_nil
  · split
    · simp [digits, zeros, point, zero]
    · split
      · have front : AllVisible (d.digits.take (d.leading.toNat + 1)) :=
          fun c hc => digits c (List.mem_of_mem_take hc)
        have back : AllVisible (d.digits.drop (d.leading.toNat + 1)) :=
          fun c hc => digits c (List.mem_of_mem_drop hc)
        simp [front, back, point]
      · simp [digits, zeros, point, zero]

theorem allVisible_escapeChar (c : Char) : AllVisible (escapeChar c) := by
  unfold escapeChar
  repeat' split
  all_goals first | decide | skip
  · exact allVisible_cons.mpr
      ⟨by decide, allVisible_cons.mpr ⟨by decide, allVisible_hexDigits 4 c.toNat⟩⟩
  · rename_i large
    exact allVisible_cons.mpr ⟨Nat.not_lt.mp large, allVisible_nil⟩

theorem allVisible_escape (cs : List Char) : AllVisible (escape cs) := by
  intro c hc
  obtain ⟨d, -, part⟩ := List.mem_flatMap.mp hc
  exact allVisible_escapeChar d c part

theorem allVisible_quote (s : String) : AllVisible (quote s).toList := by
  simp [quote, allVisible_escape, Visible]

theorem allVisible_int (n : Int) : AllVisible (chars (.int n)) := by
  rw [chars_int, allVisible_append]
  refine ⟨?_, allVisible_toDigits _⟩
  split
  · decide
  · exact allVisible_nil

theorem allVisible_real (x : Binary64) : AllVisible (chars (.real x)) := by
  by_cases finite : x.isFinite
  · obtain ⟨negative, size, -, same⟩ := chars_real finite
    rw [same, allVisible_append]
    refine ⟨?_, allVisible_write _ _⟩
    split
    · decide
    · exact allVisible_nil
  · have none_shown : chars (.real x) = "null".toList := by
      simp [chars, writeAt, writeReal, finite]
    rw [none_shown]
    decide

mutual

theorem allVisible_chars : ∀ v, AllVisible (chars v)
  | .null => by decide
  | .bool b => by cases b <;> decide
  | .int n => allVisible_int n
  | .real x => allVisible_real x
  | .text s => allVisible_quote s
  | .bytes b => allVisible_quote _
  | .list items => by
    rw [chars_list, allVisible_cons, allVisible_append]
    exact ⟨by decide, allVisible_intercalate (allVisible_items items), by decide⟩
  | .record members => by
    rw [chars_record, allVisible_cons, allVisible_append]
    exact ⟨by decide, allVisible_intercalate (allVisible_members members), by decide⟩

theorem allVisible_items : ∀ items, ∀ part ∈ charsOfItems items, AllVisible part
  | [] => fun _ none_there => nomatch none_there
  | item :: items => List.forall_mem_cons.mpr ⟨allVisible_chars item, allVisible_items items⟩

theorem allVisible_members : ∀ members, ∀ part ∈ charsOfMembers members, AllVisible part
  | [] => fun _ none_there => nomatch none_there
  | (name, value) :: members => by
    refine List.forall_mem_cons.mpr ⟨?_, allVisible_members members⟩
    simp [allVisible_escape, allVisible_chars value, Visible]

end

/-- Nothing that is written has a control character. -/
theorem allVisible_of_write (v : Value) : AllVisible (write v).toList :=
  allVisible_chars v

end ControlPanel.Json

/-- The text of a collection has no control characters, whatever value it was made from. -/
theorem ControlPanel.Archive.allVisible_encodeValue {c : Collection} {v : Value} {text : String}
    (h : encodeValue c v = .ok text) : Json.AllVisible text.toList := by
  unfold encodeValue at h
  split at h
  · cases h
    exact Json.allVisible_quote _
  · cases h
  · split at h
    · unfold Json.write? at h
      cases checked : Json.checkAt 0 (.list _) <;> rw [checked] at h <;> cases h
      exact Json.allVisible_of_write _
    · cases h
