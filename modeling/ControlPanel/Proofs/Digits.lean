import ControlPanel.Calendar.Reading
import Mathlib.Algebra.GroupWithZero.Nat
import Mathlib.Data.List.TakeWhile

/-!
# Digits read back

A number written in decimal digits, with or without leading zeros, is read back as itself, and the
digits end where something else begins.
-/
namespace ControlPanel

theorem digitsValue_append (front back : List Char) :
    digitsValue (front ++ back) = 10 ^ back.length * digitsValue front + digitsValue back := by
  have whole : digitsValue (front ++ back) = Nat.ofDigitChars 10 back (digitsValue front) :=
    Nat.ofDigitChars_append 0
  rw [whole, Nat.ofDigitChars_eq_ofDigitChars_zero]
  rfl

@[simp]
theorem digitsValue_toDigits (n : Nat) : digitsValue (Nat.toDigits 10 n) = n :=
  Nat.ofDigitChars_ten_toDigits

@[simp]
theorem digitsValue_zeros (count : Nat) : digitsValue (List.replicate count '0') = 0 :=
  Nat.ofDigitChars_replicate_zero.trans (Nat.mul_zero _)

/-- Digits stand for less than a one with as many zeros. -/
theorem digitsValue_lt {digits : List Char} (h : ∀ c ∈ digits, c.isDigit) :
    digitsValue digits < 10 ^ digits.length := by
  induction digits with
  | nil => exact Nat.one_pos
  | cons c digits ih =>
    obtain ⟨digit, others⟩ := List.forall_mem_cons.mp h
    have first : digitsValue [c] ≤ 9 := by
      have range := (Char.isDigit_iff_toNat.mp digit).2
      simp only [digitsValue, List.foldl_cons, List.foldl_nil, Nat.mul_zero, Nat.zero_add]
      exact Nat.sub_le_sub_right range 48
    have rest := ih others
    have scaled := Nat.mul_le_mul_left (10 ^ digits.length) first
    rw [← List.singleton_append, digitsValue_append, List.length_append, List.length_singleton,
      Nat.pow_add, Nat.pow_one]
    omega

theorem isDigit_toDigits {n : Nat} {c : Char} (h : c ∈ Nat.toDigits 10 n) : c.isDigit :=
  Nat.isDigit_of_mem_toDigits (by decide) (by decide) h

theorem lt_pow_length (n : Nat) : n < 10 ^ (Nat.toDigits 10 n).length :=
  (Nat.length_toDigits_le_iff (by decide) Nat.length_toDigits_pos).mp (Nat.le_refl _)

theorem pow_length_le {n : Nat} (h : 0 < n) : 10 ^ ((Nat.toDigits 10 n).length - 1) ≤ n := by
  rcases Nat.eq_zero_or_pos ((Nat.toDigits 10 n).length - 1) with single | more
  · rw [single]
    exact h
  · by_contra small
    have short := (Nat.length_toDigits_le_iff (by decide) more).mpr (Nat.not_le.mp small)
    omega

theorem toNat_digit {n : Nat} (h : n < 10) :
    (Char.ofNat (48 + n)).isDigit ∧ (Char.ofNat (48 + n)).toNat = 48 + n := by
  revert h n
  decide

@[simp]
theorem length_decimalDigits (width n : Nat) : (Text.decimalDigits width n).length = width := by
  induction width generalizing n with
  | zero => rfl
  | succ width ih => simp [Text.decimalDigits, ih]

theorem isDigit_decimalDigits {width n : Nat} {c : Char} (h : c ∈ Text.decimalDigits width n) :
    c.isDigit := by
  induction width generalizing n with
  | zero => simp [Text.decimalDigits] at h
  | succ width ih =>
    simp only [Text.decimalDigits, List.mem_append, List.mem_singleton] at h
    rcases h with h | rfl
    · exact ih h
    · exact (toNat_digit (Nat.mod_lt n (by decide))).1

theorem digitsValue_decimalDigits {width n : Nat} (h : n < 10 ^ width) :
    digitsValue (Text.decimalDigits width n) = n := by
  induction width generalizing n with
  | zero =>
    have : n = 0 := by omega
    subst this
    rfl
  | succ width ih =>
    have front : n / 10 < 10 ^ width := by omega
    have last : digitsValue [Char.ofNat (48 + n % 10)] = n % 10 := by
      have plain := (toNat_digit (Nat.mod_lt n (by decide : 0 < 10))).2
      simp only [digitsValue, List.foldl_cons, List.foldl_nil, plain]
      omega
    rw [Text.decimalDigits, digitsValue_append, ih front, last]
    simp only [List.length_singleton]
    omega

def DigitsEnd (rest : List Char) : Prop :=
  ∀ c ∈ rest.head?, c.isDigit = false

theorem DigitsEnd.cons {c : Char} (rest : List Char) (h : c.isDigit = false) :
    DigitsEnd (c :: rest) := by
  rintro c' ⟨⟩
  exact h

theorem takeDigits_append {digits rest : List Char} (h : ∀ c ∈ digits, c.isDigit)
    (ends : DigitsEnd rest) : takeDigits (digits ++ rest) = (digits, rest) := by
  have stop : rest.takeWhile Char.isDigit = [] ∧ rest.dropWhile Char.isDigit = rest := by
    cases rest with
    | nil => exact ⟨rfl, rfl⟩
    | cons c rest =>
      have other : c.isDigit = false := ends c rfl
      simp [other]
  simp only [takeDigits, List.takeWhile_append_of_pos h, List.dropWhile_append_of_pos h, stop,
    List.append_nil]

theorem takeFixed_append {width : Nat} {digits : List Char} (rest : List Char)
    (size : digits.length = width) (h : ∀ c ∈ digits, c.isDigit) :
    takeFixed? width (digits ++ rest) = some (digitsValue digits, rest) := by
  have front : (digits ++ rest).take width = digits := by rw [← size]; simp
  have back : (digits ++ rest).drop width = rest := by rw [← size]; simp
  simp only [takeFixed?, front, back, size, true_and]
  rw [if_pos (by simpa using h)]

theorem takeFixed_decimalDigits (width : Nat) {n : Nat} (rest : List Char) (h : n < 10 ^ width) :
    takeFixed? width (Text.decimalDigits width n ++ rest) = some (n, rest) := by
  rw [takeFixed_append rest (length_decimalDigits width n) fun c => isDigit_decimalDigits,
    digitsValue_decimalDigits h]

end ControlPanel
