import ControlPanel.Proofs.ShortestDecimal

/-!
# Whole numbers as doubles

A whole number is rounded to the nearest double, and there is one unless the number reaches the
middle between the largest finite double and the next power of two. Whole numbers of at most 53 bits
are doubles, and rounding keeps the others beyond them.
-/
namespace ControlPanel.Binary64

def wholeLimit : Nat := 2 ^ 1024 - 2 ^ 970

/-- A number rounded to the grid of its own leading bit. -/
def rounded (n : Nat) : Nat := roundHalfEven n (spacing n)

theorem rounded_le (n : Nat) : rounded n ≤ 2 ^ 53 := by
  have pos := spacing_pos n
  have bits := lt_spacing n
  have close := (roundHalfEven_bounds n pos).1
  have few : 2 * rounded n * spacing n < (2 ^ 54 + 1) * spacing n := by
    rw [rounded, Nat.mul_assoc]
    omega
  have := Nat.lt_of_mul_lt_mul_right few
  omega

theorem le_rounded {n : Nat} (coarse : 1 < spacing n) : 2 ^ 52 ≤ rounded n := by
  have least := spacing_le coarse
  have close := (roundHalfEven_bounds n (spacing_pos n)).2
  have many : 2 ^ 53 * spacing n ≤ (2 * rounded n + 1) * spacing n := by
    rw [rounded, Nat.add_mul, Nat.mul_assoc]
    omega
  have := Nat.le_of_mul_le_mul_right many (spacing_pos n)
  omega

/-- What has been rounded keeps to the grid, so that it is a double unless it is too large. -/
theorem fits_rounded_iff (n : Nat) :
    Fits (rounded n * spacing n) ↔ rounded n * spacing n < limit := by
  refine ⟨fun fits => fits.1, fun small => ⟨small, ?_⟩⟩
  have power := spacing_eq_pow n
  generalize n.log2 - 52 = j at power
  have normal : j = 0 ∨ 2 ^ 52 ≤ rounded n := by
    by_cases fine : j = 0
    · exact .inl fine
    · right
      apply le_rounded
      rw [power]
      exact Nat.one_lt_pow fine (by decide)
  rcases Nat.lt_or_eq_of_le (rounded_le n) with below | top
  · have grid : spacing (rounded n * 2 ^ j) = 2 ^ j := by
      apply spacing_eq
      · exact Nat.mul_lt_mul_of_pos_right below (by positivity)
      · exact normal.imp id (Nat.mul_le_mul_right _)
    rw [power, grid, Nat.mul_mod_left]
  · -- Rounding up has added a bit, and the grid is twice as wide.
    have twice : (2 ^ 53 * 2 ^ j : Nat) = 2 ^ 52 * 2 ^ (j + 1) := by
      rw [Nat.pow_succ]
      omega
    have grid : spacing (2 ^ 52 * 2 ^ (j + 1)) = 2 ^ (j + 1) := by
      apply spacing_eq
      · exact Nat.mul_lt_mul_of_pos_right (by decide) (by positivity)
      · exact .inr (Nat.le_refl _)
    rw [power, top, twice, grid, Nat.mul_mod_left]

/-- The number of bits of what has been rounded, told from the number before. -/
theorem rounded_lt_iff (n j : Nat) :
    rounded n * spacing n < 2 ^ 54 * 2 ^ j ↔ n < 2 ^ 54 * 2 ^ j - 2 ^ j := by
  have pos := spacing_pos n
  have power := spacing_eq_pow n
  have close := roundHalfEven_bounds n pos
  have bits := lt_spacing n
  have double : 2 ^ (j + 1) = 2 * 2 ^ j := Nat.pow_succ'
  have wide (more : 2 ^ (j + 1) < spacing n) : 4 * 2 ^ j ≤ spacing n := by
    rw [power] at more ⊢
    have := (Nat.pow_lt_pow_iff_right (by decide)).mp more
    calc
      4 * 2 ^ j = 2 ^ (j + 2) := by rw [Nat.pow_succ', double]; omega
      _ ≤ _ := Nat.pow_le_pow_right (by decide) (by omega)
  have positive : 0 < 2 ^ j := by positivity
  change roundHalfEven n (spacing n) * spacing n < _ ↔ _
  constructor
  · intro small
    by_contra large
    by_cases top : n < 2 ^ 54 * 2 ^ j
    · -- The number has as many bits as are allowed, and rounding up adds one.
      have grid : spacing n = 2 ^ (j + 1) := by
        apply spacing_eq
        · omega
        · omega
      have up : roundHalfEven n (spacing n) = 2 ^ 53 := by
        apply roundHalfEven_eq _ _ (.inr (by decide)) pos
        · omega
        · omega
      rw [up, grid] at small
      omega
    · have coarse : 4 * 2 ^ j ≤ spacing n := wide (by omega)
      have many : 2 ^ 52 ≤ roundHalfEven n (spacing n) := le_rounded (by omega)
      have := Nat.mul_le_mul many coarse
      omega
  · intro small
    have fine : spacing n ≤ 2 ^ (j + 1) := by
      by_contra coarse
      have := spacing_le (n := n) (by omega)
      have := wide (by omega)
      omega
    omega

theorem limit_eq : limit = 2 ^ 54 * 2 ^ 2044 := by
  delta limit
  rw [powerOfTwo_eq, ← Nat.pow_add]

theorem wholeLimit_mul_one : wholeLimit * one = 2 ^ 54 * 2 ^ 2044 - 2 ^ 2044 := by
  have top : 1024 + 1074 = 54 + 2044 := rfl
  have half : 970 + 1074 = 2044 := rfl
  rw [wholeLimit, one_eq, Nat.sub_mul, ← pow_add, ← pow_add, ← pow_add, top, half]

/-- A whole number has a double unless it is too large. -/
theorem ofInt?_eq_none_iff (n : Int) : ofInt? n = none ↔ wholeLimit ≤ n.natAbs := by
  have fits : Fits (nearestQuanta n.natAbs 1) ↔ n.natAbs < wholeLimit := by
    have unscaled : nearestQuanta n.natAbs 1 =
        rounded (n.natAbs * one) * spacing (n.natAbs * one) := by
      simp only [nearestQuanta, rounded, Nat.div_one, Nat.one_mul]
    rw [unscaled, fits_rounded_iff, limit_eq, rounded_lt_iff, ← wholeLimit_mul_one,
      Nat.mul_lt_mul_right one_pos]
  simp only [ofInt?, ofQuotient, ofRatio, ofQuanta, fits]
  split <;> simp [unlessInfinite?] <;> omega

/-- A quotient that is a double is not rounded. -/
theorem ofRatio_exact {m : Magnitude} {num den : Nat} (negative : Bool) (pos : 0 < den)
    (exact : num * one = m.quanta * den) : ofRatio negative num den = .finite negative m := by
  refine ofRatio_of_holds negative pos ?_
  rcases Nat.eq_zero_or_pos m.quanta with none | some
  · simp [Magnitude.holds, Magnitude.closed, Magnitude.lowerEnd_eq, exact, none]
  · have unit := spacing_pos m.quanta
    have some_below : 0 < m.below := by
      unfold Magnitude.below
      split <;> omega
    have value : 4 * (num * one) = 4 * m.quanta * den := by rw [exact, Nat.mul_assoc]
    apply Magnitude.holds_of_lt
    · rw [value, Magnitude.lowerEnd_eq]
      exact Nat.mul_lt_mul_of_pos_right (by omega) pos
    · rw [value, Magnitude.upperEnd]
      exact Nat.mul_lt_mul_of_pos_right (by omega) pos

theorem two_pow_mul_one (n : Nat) : 2 ^ n * one = 2 ^ (n + 1074) := by
  rw [one_eq, ← Nat.pow_add]

theorem fits_whole {n : Nat} (short : n < 2 ^ 53) : Fits (n * one) := by
  have bits : n * one < 2 ^ (53 + 1074) := by
    rw [← two_pow_mul_one]
    exact Nat.mul_lt_mul_of_pos_right short one_pos
  constructor
  · rw [limit_eq, ← pow_add]
    exact bits.trans_le (pow_le_pow_right₀ one_le_two (by decide))
  · have divides : spacing (n * one) ∣ one := by
      rw [spacing_eq_pow, one_eq]
      apply Nat.pow_dvd_pow
      by_cases none : n * 2 ^ 1074 = 0
      · rw [none, Nat.log2_zero]
        exact Nat.zero_le _
      · rw [one_eq] at bits
        have := (Nat.log2_lt none).mpr bits
        omega
    exact Nat.mod_eq_zero_of_dvd (divides.mul_left n)

def wholeMagnitude (n : Nat) (short : n < 2 ^ 53) : Magnitude := ⟨n * one, fits_whole short⟩

theorem quanta_wholeMagnitude {n : Nat} (short : n < 2 ^ 53) :
    (wholeMagnitude n short).quanta = n * one := rfl

theorem ofRatio_whole {n : Nat} (negative : Bool) (short : n < 2 ^ 53) :
    ofRatio negative n 1 = .finite negative (wholeMagnitude n short) :=
  ofRatio_exact negative (by decide) (Nat.mul_one _).symm

theorem ofInt?_of_short {n : Int} (short : n.natAbs < 2 ^ 53) :
    ofInt? n = some (.finite (decide (n < 0)) (wholeMagnitude n.natAbs short)) := by
  rw [ofInt?, ofQuotient, ofRatio_whole _ short]
  rfl

/-- Longer whole numbers are rounded to doubles of the same length at least. -/
theorem le_nearestQuanta {n : Nat} (long : 2 ^ 53 ≤ n) : 2 ^ 53 * one ≤ nearestQuanta n 1 := by
  have bits : 2 ^ (53 + 1074) ≤ n * one := by
    rw [← two_pow_mul_one]
    exact Nat.mul_le_mul_right _ long
  have coarse : 2 ^ 1075 ≤ spacing (n * one) := by
    have some : n * one ≠ 0 := Nat.ne_zero_of_lt (lt_of_lt_of_le (by positivity) bits)
    have high := (Nat.le_log2 some).mpr bits
    rw [spacing_eq_pow]
    exact pow_le_pow_right₀ one_le_two (by omega)
  have many : 2 ^ 52 ≤ rounded (n * one) :=
    le_rounded ((Nat.one_lt_two_pow (by decide)).trans_le coarse)
  calc 2 ^ 53 * one = 2 ^ 52 * 2 ^ 1075 := by rw [two_pow_mul_one, ← Nat.pow_add]
    _ ≤ rounded (n * one) * spacing (n * one) := Nat.mul_le_mul many coarse
    _ = nearestQuanta n 1 := by simp only [nearestQuanta, rounded, Nat.div_one, Nat.one_mul]

theorem ofInt?_of_long {n : Int} {x : Binary64} (long : 2 ^ 53 ≤ n.natAbs)
    (double : ofInt? n = some x) :
    ∃ m, x = .finite (decide (n < 0)) m ∧ 2 ^ 53 * one ≤ m.quanta := by
  unfold ofInt? ofQuotient ofRatio ofQuanta at double
  split at double
  · rename_i fits
    cases double
    exact ⟨⟨_, fits⟩, rfl, le_nearestQuanta long⟩
  · cases double

theorem le_finite (a b : Bool) (m m' : Magnitude) :
    (finite a m).le (finite b m') ↔
      (if a then -(m.quanta : Int) else m.quanta) ≤ if b then -(m'.quanta : Int) else m'.quanta :=
  decide_eq_true_iff

/-- The signed quanta of a short whole number. -/
theorem signed_whole (n : Int) (short : n.natAbs < 2 ^ 53) :
    (if decide (n < 0) then -((wholeMagnitude n.natAbs short).quanta : Int)
      else (wholeMagnitude n.natAbs short).quanta) = n * one := by
  rw [quanta_wholeMagnitude, Int.natCast_mul]
  rcases lt_or_ge n 0 with negative | positive
  · have size : (n.natAbs : Int) = -n := Int.ofNat_natAbs_of_nonpos negative.le
    rw [if_pos (decide_eq_true negative), size, Int.neg_mul, Int.neg_neg]
  · rw [if_neg (by simpa using positive), Int.natAbs_of_nonneg positive]

/-- A short whole number compares with the double of any other as with the other itself. -/
theorem ofNat_le_iff {k : Nat} {n : Int} {x : Binary64} (short : k < 2 ^ 53)
    (double : ofInt? n = some x) : (ofNat k).le x ↔ (k : Int) ≤ n := by
  have unit : 0 < (one : Int) := Int.natCast_pos.mpr one_pos
  have same : ofNat k = .finite false (wholeMagnitude k short) := ofRatio_whole false short
  rw [same]
  rcases Nat.lt_or_ge n.natAbs (2 ^ 53) with few | many
  · rw [ofInt?_of_short few] at double
    cases double
    rw [le_finite, signed_whole, if_neg Bool.false_ne_true, quanta_wholeMagnitude,
      Int.natCast_mul]
    exact mul_le_mul_iff_left₀ unit
  · obtain ⟨m, rfl, large⟩ := ofInt?_of_long many double
    have fewer : (wholeMagnitude k short).quanta < m.quanta :=
      (Nat.mul_lt_mul_of_pos_right short one_pos).trans_le large
    rw [le_finite, if_neg Bool.false_ne_true]
    rcases lt_or_ge n 0 with negative | positive
    · rw [if_pos (decide_eq_true negative)]
      omega
    · rw [if_neg (by simpa using positive)]
      omega

end ControlPanel.Binary64
