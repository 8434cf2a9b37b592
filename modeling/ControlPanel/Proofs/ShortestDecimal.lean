import ControlPanel.Number.Shortest
import ControlPanel.Proofs.Digits
import Mathlib.Tactic.Linarith
import Mathlib.Tactic.NormNum
import Mathlib.Tactic.Ring

/-!
# Shortest decimals read back

Whatever lies in the interval of a finite double is rounded to that double. Some decimal of at most
seventeen digits does, because ten to the sixteenth exceeds two to the fifty-third, so the shortest
decimal of a double reads back as the double.
-/
namespace ControlPanel

theorem roundHalfEven_eq {num den k : Nat} (low : 2 * (k * den) ≤ 2 * num + den)
    (high : 2 * num ≤ 2 * (k * den) + den)
    (clear : (2 * (k * den) < 2 * num + den ∧ 2 * num < 2 * (k * den) + den) ∨ k % 2 = 0)
    (pos : 0 < den) : roundHalfEven num den = k := by
  have split := Nat.div_add_mod num den
  have less := Nat.mod_lt num pos
  rw [Nat.mul_comm] at split
  simp only [roundHalfEven]
  generalize num / den = whole at *
  generalize num % den = rest at *
  have below : whole ≤ k := by
    by_contra large
    have far : (k + 1) * den ≤ whole * den := Nat.mul_le_mul_right _ (by omega)
    rw [Nat.add_mul, Nat.one_mul] at far
    omega
  have above : k ≤ whole + 1 := by
    by_contra under
    have far : (whole + 2) * den ≤ k * den := Nat.mul_le_mul_right _ (by omega)
    rw [Nat.add_mul] at far
    omega
  rcases Nat.lt_or_ge whole k with up | same
  · have next : k = whole + 1 := by omega
    subst next
    rw [Nat.add_mul, Nat.one_mul] at low high clear
    split
    · omega
    · split <;> omega
  · have equal : k = whole := by omega
    subst equal
    split
    · rfl
    · split <;> omega

theorem roundHalfEven_bounds (num : Nat) {den : Nat} (pos : 0 < den) :
    2 * (roundHalfEven num den * den) ≤ 2 * num + den ∧
      2 * num ≤ 2 * (roundHalfEven num den * den) + den := by
  have split := Nat.div_add_mod num den
  have less := Nat.mod_lt num pos
  rw [Nat.mul_comm] at split
  simp only [roundHalfEven]
  generalize num / den = whole at *
  generalize num % den = rest at *
  have up : (whole + 1) * den = whole * den + den := by rw [Nat.add_mul, Nat.one_mul]
  split
  · omega
  · split
    · omega
    · rcases Nat.mod_two_eq_zero_or_one whole with even | odd
      · rw [even, Nat.add_zero]
        omega
      · rw [odd]
        omega

namespace Binary64

theorem powerOfTwo_eq (n : Nat) : powerOfTwo n = 2 ^ n := Nat.pow_eq

theorem one_eq : one = 2 ^ 1074 := by
  delta one
  exact powerOfTwo_eq 1074

theorem one_pos : 0 < one := by
  rw [one_eq]
  positivity

theorem limit_lt : 2 * limit < 10 ^ 309 * one := by decide +kernel

theorem one_lt : 2 * one < 10 ^ 324 := by decide +kernel

theorem spacing_eq_pow (n : Nat) : spacing n = 2 ^ (n.log2 - 52) := by
  delta spacing
  exact powerOfTwo_eq _

theorem spacing_pos (n : Nat) : 0 < spacing n := by
  rw [spacing_eq_pow]
  positivity

/-- A double has at most 53 significant bits. -/
theorem lt_spacing (n : Nat) : n < 2 ^ 53 * spacing n := by
  rw [spacing_eq_pow, ← Nat.pow_add]
  by_cases zero : n = 0
  · subst zero
    positivity
  · exact (Nat.lt_log2_self).trans_le (Nat.pow_le_pow_right (by decide) (by omega))

theorem spacing_le {n : Nat} (h : 1 < spacing n) : 2 ^ 52 * spacing n ≤ n := by
  rw [spacing_eq_pow] at h ⊢
  have normal : 52 ≤ n.log2 := by
    by_contra small
    rw [Nat.sub_eq_zero_of_le (by omega)] at h
    exact absurd h (by decide)
  have positive : n ≠ 0 := by
    rintro rfl
    exact absurd normal (by decide)
  rw [← Nat.pow_add, Nat.add_sub_of_le normal]
  exact Nat.log2_self_le positive

/-- The spacing is known from the bits around a number. -/
theorem spacing_eq {n j : Nat} (high : n < 2 ^ 53 * 2 ^ j) (low : j = 0 ∨ 2 ^ 52 * 2 ^ j ≤ n) :
    spacing n = 2 ^ j := by
  rw [spacing_eq_pow]
  rw [← Nat.pow_add] at high low
  congr 1
  rcases low with rfl | low
  · have small : n.log2 < 53 ∨ n = 0 := by
      by_cases zero : n = 0
      · exact .inr zero
      · exact .inl ((Nat.log2_lt zero).mpr high)
    rcases small with small | rfl
    · omega
    · rfl
  · have positive : n ≠ 0 := by
      rintro rfl
      exact absurd low (Nat.not_le.mpr (by positivity))
    have lower := (Nat.le_log2 positive).mpr low
    have upper := (Nat.log2_lt positive).mpr high
    omega

end Binary64

namespace Magnitude

open Binary64

def significand (m : Magnitude) : Nat := m.quanta / spacing m.quanta

theorem significand_mul (m : Magnitude) : m.significand * spacing m.quanta = m.quanta :=
  Nat.div_mul_cancel (Nat.dvd_of_mod_eq_zero m.fits.2)

theorem significand_lt (m : Magnitude) : m.significand < 2 ^ 53 :=
  (Nat.div_lt_iff_lt_mul (spacing_pos _)).mpr (lt_spacing _)

def AtPower (m : Magnitude) : Prop :=
  m.quanta = Nat.pow 2 52 * spacing m.quanta ∧ 1 < spacing m.quanta

instance (m : Magnitude) : Decidable m.AtPower := inferInstanceAs (Decidable (_ ∧ _))

/-- Quarters of a quantum that the interval reaches downwards. -/
def below (m : Magnitude) : Nat :=
  if m.AtPower then spacing m.quanta else 2 * spacing m.quanta

theorem lowerEnd_eq (m : Magnitude) : m.lowerEnd = 4 * m.quanta - m.below := rfl

theorem quanta_mul (m : Magnitude) (den : Nat) :
    m.quanta * den = m.significand * (den * spacing m.quanta) := by
  rw [Nat.mul_comm den, ← Nat.mul_assoc, significand_mul]

variable {m : Magnitude} {num den : Nat}

/-- What `holds` says; the ends count where the significand is even. -/
theorem bounds_of_holds (pos : 0 < den) (h : m.holds num den) :
    4 * (m.significand * (den * spacing m.quanta)) ≤ 4 * num + m.below * den ∧
      4 * num ≤ 4 * (m.significand * (den * spacing m.quanta)) + 2 * (den * spacing m.quanta) ∧
      ((4 * (m.significand * (den * spacing m.quanta)) < 4 * num + m.below * den ∧
          4 * num < 4 * (m.significand * (den * spacing m.quanta)) +
            2 * (den * spacing m.quanta)) ∨ m.significand % 2 = 0) := by
  have lower : m.lowerEnd * den = 4 * (m.quanta * den) - m.below * den := by
    rw [lowerEnd_eq, Nat.sub_mul, Nat.mul_assoc]
  have upper : m.upperEnd * den = 4 * (m.quanta * den) + 2 * (den * spacing m.quanta) := by
    rw [upperEnd]
    ring
  have some_below : 0 < m.below * den := by
    refine Nat.mul_pos ?_ pos
    have unit := spacing_pos m.quanta
    unfold below
    split <;> omega
  rw [← quanta_mul]
  by_cases even : m.closed
  · simp only [holds, even, if_true, Bool.and_eq_true, decide_eq_true_eq, lower, upper] at h
    exact ⟨by omega, h.2, .inr (by simpa [closed, significand] using even)⟩
  · simp only [holds, even, Bool.false_eq_true, if_false, Bool.and_eq_true,
      decide_eq_true_eq, lower, upper] at h
    exact ⟨by omega, h.2.le, .inl ⟨by omega, h.2⟩⟩

/-- Rounding to the grid of a double whose spacing is known. -/
theorem rounds_on_grid {unit k : Nat} (pos : 0 < den) (grid : spacing (num / den) = unit)
    (low : 4 * (k * (den * unit)) ≤ 4 * num + 2 * (den * unit))
    (high : 4 * num ≤ 4 * (k * (den * unit)) + 2 * (den * unit))
    (clear : (4 * (k * (den * unit)) < 4 * num + 2 * (den * unit) ∧
      4 * num < 4 * (k * (den * unit)) + 2 * (den * unit)) ∨ k % 2 = 0) :
    roundHalfEven num (den * spacing (num / den)) * spacing (num / den) = k * unit := by
  have positive := spacing_pos (num / den)
  rw [grid] at positive ⊢
  have nearest : roundHalfEven num (den * unit) = k :=
    roundHalfEven_eq (by omega) (by omega) (by omega) (Nat.mul_pos pos positive)
  rw [nearest]

theorem significand_of_atPower (h : m.AtPower) : m.significand = 2 ^ 52 :=
  Nat.eq_of_mul_eq_mul_right (spacing_pos _) (m.significand_mul.trans h.1)

/-- Away from the powers of two even the lower end lies on the grid of the magnitude. -/
theorem significand_gt (coarse : 1 < spacing m.quanta) (h : ¬m.AtPower) :
    2 ^ 52 < m.significand := by
  by_contra small
  have least := spacing_le coarse
  have most := Nat.mul_le_mul_right (spacing m.quanta) (Nat.not_lt.mp small)
  rw [significand_mul] at most
  exact h ⟨by rw [Nat.pow_eq]; omega, coarse⟩

/-- What lies in the interval of a magnitude has the grid of the magnitude, unless it has too few
bits for it. -/
theorem grid_of_holds (pos : 0 < den) (h : m.holds num den)
    (long : 1 < spacing m.quanta → 2 ^ 52 * (den * spacing m.quanta) ≤ num) :
    spacing (num / den) = spacing m.quanta := by
  obtain ⟨-, high, -⟩ := bounds_of_holds pos h
  have short := Nat.mul_le_mul_right (den * spacing m.quanta) (Nat.le_sub_one_of_lt m.significand_lt)
  have some_unit := Nat.mul_pos pos (spacing_pos m.quanta)
  have high_bits : num / den < 2 ^ 53 * spacing m.quanta := by
    rw [Nat.div_lt_iff_lt_mul pos, Nat.mul_assoc, Nat.mul_comm _ den]
    omega
  have low_bits (coarse : 1 < spacing m.quanta) : 2 ^ 52 * spacing m.quanta ≤ num / den := by
    rw [Nat.le_div_iff_mul_le pos, Nat.mul_assoc, Nat.mul_comm _ den]
    exact long coarse
  have width : spacing m.quanta = 2 ^ (m.quanta.log2 - 52) := spacing_eq_pow _
  generalize m.quanta.log2 - 52 = j at width
  rw [width] at high_bits low_bits ⊢
  refine spacing_eq high_bits ?_
  rcases Nat.eq_zero_or_pos j with fine | coarse
  · exact .inl fine
  · exact .inr (low_bits (Nat.one_lt_two_pow coarse.ne'))

/-- At a power of two the interval reaches half as far down as up. -/
theorem low_of_atPower (pos : 0 < den) (h : m.holds num den) (power : m.AtPower) :
    4 * (2 ^ 52 * (den * spacing m.quanta)) ≤ 4 * num + den * spacing m.quanta := by
  have low := (bounds_of_holds pos h).1
  rwa [significand_of_atPower power, below, if_pos power, Nat.mul_comm (spacing _)] at low

theorem rounds_above_power (pos : 0 < den) (h : m.holds num den) (power : m.AtPower)
    (above : 2 ^ 52 * (den * spacing m.quanta) ≤ num) :
    roundHalfEven num (den * spacing (num / den)) * spacing (num / den) = m.quanta := by
  obtain ⟨-, high, -⟩ := bounds_of_holds pos h
  rw [significand_of_atPower power] at high
  have low := low_of_atPower pos h power
  have grid := grid_of_holds pos h fun _ => above
  exact (rounds_on_grid pos grid (by omega) high (.inr (by decide))).trans power.1.symm

/-- Below a power of two the grid is twice as fine, and the power is an even number of its steps. -/
theorem rounds_below_power (pos : 0 < den) (h : m.holds num den) (power : m.AtPower)
    (under : num < 2 ^ 52 * (den * spacing m.quanta)) :
    roundHalfEven num (den * spacing (num / den)) * spacing (num / den) = m.quanta := by
  have low := low_of_atPower pos h power
  have some_unit := Nat.mul_pos pos (spacing_pos m.quanta)
  obtain ⟨i, width⟩ : ∃ i, spacing m.quanta = 2 ^ (i + 1) := by
    have width := spacing_eq_pow m.quanta
    cases bits : m.quanta.log2 - 52 with
    | zero =>
      rw [bits] at width
      exact absurd power.2 (by rw [width]; decide)
    | succ i => exact ⟨i, by rw [width, bits]⟩
  have halved : den * spacing m.quanta = 2 * (den * 2 ^ i) := by
    rw [width, Nat.pow_succ]
    ring
  have grid : spacing (num / den) = 2 ^ i := by
    refine spacing_eq ?_ (.inr ?_)
    · rw [Nat.div_lt_iff_lt_mul pos, Nat.mul_assoc, Nat.mul_comm _ den]
      omega
    · rw [Nat.le_div_iff_mul_le pos, Nat.mul_assoc, Nat.mul_comm _ den]
      omega
  have nearest := rounds_on_grid pos grid (k := 2 ^ 53) (by omega) (by omega) (.inr (by decide))
  calc _ = 2 ^ 53 * 2 ^ i := nearest
    _ = 2 ^ 52 * spacing m.quanta := by
      rw [width, Nat.pow_succ 2 i]
      ring
    _ = m.quanta := power.1.symm

theorem rounds_off_power (pos : 0 < den) (h : m.holds num den) (power : ¬m.AtPower) :
    roundHalfEven num (den * spacing (num / den)) * spacing (num / den) = m.quanta := by
  obtain ⟨low, high, clear⟩ := bounds_of_holds pos h
  have reach : m.below * den = 2 * (den * spacing m.quanta) := by
    rw [below, if_neg power]
    ring
  rw [reach] at low clear
  have grid : spacing (num / den) = spacing m.quanta := by
    refine grid_of_holds pos h fun coarse => ?_
    have long := Nat.mul_le_mul_right (den * spacing m.quanta) (significand_gt coarse power)
    omega
  rw [rounds_on_grid pos grid low high clear, significand_mul]

/-- Whatever lies in the interval of a magnitude is rounded to it. -/
theorem rounds_of_holds (pos : 0 < den) (h : m.holds num den) :
    roundHalfEven num (den * spacing (num / den)) * spacing (num / den) = m.quanta := by
  by_cases power : m.AtPower
  · rcases Nat.lt_or_ge num (2 ^ 52 * (den * spacing m.quanta)) with under | above
    · exact rounds_below_power pos h power under
    · exact rounds_above_power pos h power above
  · exact rounds_off_power pos h power

theorem holds_scale {k : Nat} (pos : 0 < k) :
    m.holds (num * k) (den * k) = m.holds num den := by
  have low : m.lowerEnd * (den * k) = m.lowerEnd * den * k := (Nat.mul_assoc ..).symm
  have high : m.upperEnd * (den * k) = m.upperEnd * den * k := (Nat.mul_assoc ..).symm
  have mid : 4 * (num * k) = 4 * num * k := (Nat.mul_assoc ..).symm
  simp only [holds, low, high, mid, Nat.mul_le_mul_right_iff pos, Nat.mul_lt_mul_right pos]

theorem holds_of_lt (low : m.lowerEnd * den < 4 * num)
    (high : 4 * num < m.upperEnd * den) : m.holds num den := by
  unfold holds
  split
  · simp [low.le, high.le]
  · simp [low, high]

theorem spacing_le_quanta (h : 0 < m.quanta) : spacing m.quanta ≤ m.quanta := by
  rcases Nat.lt_or_ge 1 (spacing m.quanta) with coarse | fine
  · have least := spacing_le coarse
    omega
  · omega

/-- What lies in the interval of a positive magnitude is neither too large nor too small to be
computed with. -/
theorem bounded_of_holds (pos : 0 < den) (some : 0 < m.quanta)
    (h : m.holds num den) : num < 2 * limit * den ∧ den ≤ 2 * num := by
  obtain ⟨low, high, -⟩ := bounds_of_holds pos h
  rw [← quanta_mul] at low high
  have unit := Nat.mul_le_mul_right den (spacing_le_quanta some)
  have reach : m.below * den ≤ 2 * (spacing m.quanta * den) := by
    rw [← Nat.mul_assoc]
    refine Nat.mul_le_mul_right den ?_
    unfold below
    split <;> omega
  rw [Nat.mul_comm den] at high
  constructor
  · have fits := Nat.mul_lt_mul_of_pos_right m.fits.1 pos
    rw [Nat.mul_assoc]
    omega
  · have least := Nat.mul_le_mul_right den some
    omega

end Magnitude

namespace Binary64

theorem ofRatio_of_holds {m : Magnitude} {num den : Nat} (negative : Bool) (pos : 0 < den)
    (h : m.holds (num * one) den) : ofRatio negative num den = .finite negative m := by
  rw [ofRatio, nearestQuanta, Magnitude.rounds_of_holds pos h, ofQuanta, dif_pos m.fits]

end Binary64

namespace Decimal

open Binary64

theorem isDigit_digits {x : Decimal} : ∀ c ∈ x.digits, c.isDigit := fun _ => isDigit_toDigits

theorem digits_ne_nil (x : Decimal) : x.digits ≠ [] := Nat.toDigits_ne_nil

theorem digitsValue_digits (x : Decimal) : digitsValue x.digits = x.coefficient :=
  digitsValue_toDigits _

theorem leading_eq (x : Decimal) : x.leading = x.exponent + x.digits.length - 1 := rfl

def ReadsAs (d : Decimal) (m : Magnitude) : Prop :=
  m.holds (d.coefficient * (one * Nat.pow 10 d.exponent.toNat)) (Nat.pow 10 (-d.exponent).toNat)

/-- A zero more at the end, and an exponent smaller by one. -/
theorem readsAs_shift {c : Nat} {e : Int} {m : Magnitude} :
    ReadsAs ⟨c * 10, e⟩ m ↔ ReadsAs ⟨c, e + 1⟩ m := by
  simp only [ReadsAs, Nat.pow_eq]
  by_cases whole : 0 ≤ e
  · have up : (e + 1).toNat = e.toNat + 1 := by omega
    have down : (-e).toNat = 0 ∧ (-(e + 1)).toNat = 0 := by omega
    rw [up, down.1, down.2, Nat.pow_succ]
    ring_nf
  · have up : e.toNat = 0 ∧ (e + 1).toNat = 0 := by omega
    have down : (-e).toNat = (-(e + 1)).toNat + 1 := by omega
    have scaled : m.holds (c * one * 10) (10 ^ (-(e + 1)).toNat * 10) =
        m.holds (c * one) (10 ^ (-(e + 1)).toNat) := Magnitude.holds_scale (by decide)
    rw [up.1, up.2, down, Nat.pow_zero, Nat.mul_one, ← scaled, Nat.pow_succ, Nat.mul_right_comm]

theorem readsAs_shifts {c : Nat} {e : Int} {m : Magnitude} (n : Nat) :
    ReadsAs ⟨c * 10 ^ n, e - n⟩ m ↔ ReadsAs ⟨c, e⟩ m := by
  induction n with
  | zero => simp
  | succ n ih =>
    rw [← ih, Nat.pow_succ, ← Nat.mul_assoc, readsAs_shift]
    have same : e - (n + 1 : Nat) + 1 = e - n := by omega
    rw [same]

theorem readsAs_stripped {d : Decimal} {m : Magnitude} (fuel : Nat) (h : d.ReadsAs m) :
    (d.stripped fuel).ReadsAs m := by
  induction fuel generalizing d with
  | zero => exact h
  | succ fuel ih =>
    simp only [stripped]
    split
    · rename_i zero
      refine ih (readsAs_shift.mp ?_)
      rwa [Nat.div_mul_cancel (Nat.dvd_of_mod_eq_zero zero.2)]
    · exact h

/-- The leading digit of a decimal that is rounded to a positive magnitude. -/
theorem leading_bounds {c : Nat} {e : Int} {m : Magnitude} (some : 0 < m.quanta)
    (h : ReadsAs ⟨c, e⟩ m) :
    0 < c ∧ (Nat.toDigits 10 c).length + e ≤ 309 ∧ -324 ≤ (Nat.toDigits 10 c).length + e := by
  have scaled := Magnitude.bounded_of_holds (Nat.pow_pos (by decide)) some h
  simp only [Nat.pow_eq] at scaled
  obtain ⟨high, low⟩ := scaled
  have positive : 0 < c := by
    rcases Nat.eq_zero_or_pos c with rfl | positive
    · have down : 0 < 10 ^ (-e).toNat := by positivity
      omega
    · exact positive
  have digits := Nat.length_toDigits_pos (b := 10) (n := c)
  have below := lt_pow_length c
  have above := pow_length_le positive
  generalize (Nat.toDigits 10 c).length = length at *
  refine ⟨positive, ?_, ?_⟩
  · have less : c * 10 ^ e.toNat * one < 10 ^ (309 + (-e).toNat) * one := by
      calc c * 10 ^ e.toNat * one = c * (one * 10 ^ e.toNat) := by ring
        _ < 2 * limit * 10 ^ (-e).toNat := high
        _ ≤ 10 ^ 309 * one * 10 ^ (-e).toNat := Nat.mul_le_mul_right _ limit_lt.le
        _ = 10 ^ (309 + (-e).toNat) * one := by rw [Nat.pow_add, Nat.mul_right_comm]
    have powers : 10 ^ (length - 1 + e.toNat) < 10 ^ (309 + (-e).toNat) := by
      rw [Nat.pow_add]
      exact (Nat.mul_le_mul_right _ above).trans_lt (Nat.lt_of_mul_lt_mul_right less)
    have exponents := (Nat.pow_lt_pow_iff_right (by decide)).mp powers
    omega
  · have powers : 10 ^ (-e).toNat < 10 ^ (length + e.toNat + 324) := by
      calc 10 ^ (-e).toNat ≤ 2 * (c * (one * 10 ^ e.toNat)) := low
        _ = c * 10 ^ e.toNat * (2 * one) := by ring
        _ < c * 10 ^ e.toNat * 10 ^ 324 := Nat.mul_lt_mul_of_pos_left one_lt (by positivity)
        _ ≤ 10 ^ length * 10 ^ e.toNat * 10 ^ 324 :=
          Nat.mul_le_mul_right _ (Nat.mul_le_mul_right _ below.le)
        _ = 10 ^ (length + e.toNat + 324) := by rw [Nat.pow_add, Nat.pow_add]
    have exponents := (Nat.pow_lt_pow_iff_right (by decide)).mp powers
    omega

theorem ofDecimal_of_readsAs {c : Nat} {e : Int} {m : Magnitude} (negative : Bool)
    (some : 0 < m.quanta) (h : ReadsAs ⟨c, e⟩ m) :
    ofDecimal negative c e = .finite negative m := by
  obtain ⟨positive, high, low⟩ := leading_bounds some h
  simp only [ReadsAs] at h
  have nonzero : c ≠ 0 := by omega
  have not_large : ¬310 < ((Nat.toDigits 10 c).length : Int) + e := by omega
  have not_small : ¬((Nat.toDigits 10 c).length : Int) + e < -324 := by omega
  simp only [ofDecimal, if_neg nonzero, if_neg not_large, if_neg not_small]
  split
  · rename_i whole
    have down : (-e).toNat = 0 := by omega
    rw [down, Nat.mul_comm one, ← Nat.mul_assoc] at h
    exact ofRatio_of_holds negative (by decide) h
  · rename_i fraction
    have up : e.toNat = 0 := by omega
    rw [up] at h
    exact ofRatio_of_holds negative (Nat.pow_pos (by decide)) (by simpa using h)

/-- The leading digit of a magnitude stands at its leading exponent or above. -/
theorem leading_le {m : Magnitude} (some : 0 < m.quanta) (n : Nat) :
    one * 10 ^ (m.leading - n).toNat * 10 ^ n ≤ m.quanta * 10 ^ (-(m.leading - n)).toNat := by
  simp only [Magnitude.leading]
  split
  · rename_i large
    have digits := Nat.length_toDigits_pos (b := 10) (n := m.quanta / one)
    have whole := (Nat.mul_le_mul_left one (pow_length_le (Nat.div_pos large one_pos))).trans
      (Nat.mul_div_le m.quanta one)
    generalize (Nat.toDigits 10 (m.quanta / one)).length = length at *
    have exponents : ((length : Int) - 1 - n).toNat + n = length - 1 + (-((length : Int) - 1 - n)).toNat := by
      omega
    rw [Nat.mul_assoc, ← Nat.pow_add, exponents, Nat.pow_add, ← Nat.mul_assoc]
    exact Nat.mul_le_mul_right _ whole
  · have whole : one ≤ m.quanta * 10 ^ (Nat.toDigits 10 (one / m.quanta)).length := by
      have above := lt_pow_length (one / m.quanta)
      rw [Nat.div_lt_iff_lt_mul some, Nat.mul_comm] at above
      exact above.le
    generalize (Nat.toDigits 10 (one / m.quanta)).length = length at *
    have up : (-(length : Int) - n).toNat = 0 := by omega
    have down : (-(-(length : Int) - n)).toNat = length + n := by omega
    rw [up, down, Nat.pow_zero, Nat.mul_one, Nat.pow_add, ← Nat.mul_assoc]
    exact Nat.mul_le_mul_right _ whole

/-- Steps of less than `10 ^ -16` of a magnitude are shorter than its interval on either side. -/
theorem step_lt {m : Magnitude} {den step : Nat} (pos : 0 < den)
    (fine : step * 10 ^ 16 ≤ m.quanta * den) :
    step < spacing m.quanta * den ∧ 2 * step < m.below * den := by
  have bits := Nat.mul_lt_mul_of_pos_right (lt_spacing m.quanta) pos
  rw [Nat.mul_assoc] at bits
  refine ⟨by omega, ?_⟩
  by_cases power : m.AtPower
  · have exact_power := congrArg (· * den) power.1
    simp only [Nat.pow_eq, Nat.mul_assoc] at exact_power
    rw [Magnitude.below, if_pos power]
    omega
  · rw [Magnitude.below, if_neg power, Nat.mul_assoc]
    omega

/-- With seventeen digits the grid of decimals is finer than that of the doubles. -/
theorem nearest_isSome {m : Magnitude} (some : 0 < m.quanta) :
    (m.nearest? (m.leading - (16 : Nat))).isSome := by
  have fine := leading_le some 16
  generalize m.leading - (16 : Nat) = e at *
  have pos : 0 < 10 ^ (-e).toNat := by positivity
  obtain ⟨up, down⟩ := step_lt pos fine
  have step : 0 < one * 10 ^ e.toNat := Nat.mul_pos one_pos (by positivity)
  obtain ⟨low, high⟩ := roundHalfEven_bounds (m.quanta * 10 ^ (-e).toNat) step
  have reads : m.holds (roundHalfEven (m.quanta * Nat.pow 10 (-e).toNat)
      (one * Nat.pow 10 e.toNat) * (one * Nat.pow 10 e.toNat)) (Nat.pow 10 (-e).toNat) := by
    simp only [Nat.pow_eq]
    refine Magnitude.holds_of_lt ?_ ?_
    · rw [Magnitude.lowerEnd_eq, Nat.sub_mul, Nat.mul_assoc]
      omega
    · rw [Magnitude.upperEnd, Nat.add_mul, Nat.mul_assoc, Nat.mul_assoc]
      omega
  simp only [Magnitude.nearest?]
  rw [if_pos reads]
  rfl

theorem pick_readsAs {m : Magnitude} {e : Int} {d : Decimal} {first second : Nat}
    (h : (if m.holds (first * (one * Nat.pow 10 e.toNat)) (Nat.pow 10 (-e).toNat) then
        some (Decimal.mk first e)
      else if m.holds (second * (one * Nat.pow 10 e.toNat)) (Nat.pow 10 (-e).toNat) then
        some ⟨second, e⟩
      else none) = some d) : d.ReadsAs m := by
  split at h
  · rename_i reads
    cases h
    exact reads
  · split at h
    · rename_i reads
      cases h
      exact reads
    · cases h

theorem readsAs_of_nearest {m : Magnitude} {e : Int} {d : Decimal} (h : m.nearest? e = some d) :
    d.ReadsAs m :=
  pick_readsAs h

theorem shortest_readsAs {m : Magnitude} (some : 0 < m.quanta) : m.shortest.ReadsAs m := by
  rw [Magnitude.shortest, if_neg (by omega)]
  split
  · rename_i d found
    obtain ⟨n, -, found⟩ := List.exists_of_findSome?_eq_some found
    exact readsAs_stripped 400 (readsAs_of_nearest found)
  · rename_i nothing
    have none_found := List.findSome?_eq_none_iff.mp nothing 16 (by decide)
    have found := nearest_isSome some
    rw [none_found] at found
    cases found

theorem ofDecimal_zero {m : Magnitude} (negative : Bool) (e : Int) (h : m.quanta = 0) :
    ofDecimal negative 0 e = .finite negative m := by
  have holds : m.holds (0 * one) 1 := by
    simp [Magnitude.holds, Magnitude.closed, Magnitude.lowerEnd_eq, h]
  rw [ofDecimal, if_pos rfl]
  exact ofRatio_of_holds negative (by decide) holds

/-- The shortest decimal of a magnitude, with any number of zeros at its end, is rounded to it. -/
theorem ofDecimal_shortest (m : Magnitude) (negative : Bool) (zeros : Nat) :
    ofDecimal negative (m.shortest.coefficient * 10 ^ zeros) (m.shortest.exponent - zeros) =
      .finite negative m := by
  rcases Nat.eq_zero_or_pos m.quanta with none | some
  · rw [Magnitude.shortest, if_pos none, Nat.zero_mul]
    exact ofDecimal_zero negative _ none
  · exact ofDecimal_of_readsAs negative some ((readsAs_shifts zeros).mpr (shortest_readsAs some))

end Decimal

end ControlPanel
