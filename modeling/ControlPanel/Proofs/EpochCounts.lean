import ControlPanel.Calendar.Reading
import ControlPanel.Proofs.CalendarText
import ControlPanel.Proofs.WholeReals

/-!
# Counts of seconds and of milliseconds

A number is taken for a count of seconds since 1970 or, from a limit on, of milliseconds. No number
from the limit on could be meant as seconds, for there are fewer until the end of the calendar; and
from 2001 on the milliseconds of a second lie beyond the limit, so that both counts give the same
instant.
-/
namespace ControlPanel.Instant

open Binary64

theorem ofRatio_zero : ∃ m : Magnitude, m.quanta = 0 ∧
    ∀ den, 0 < den → ofRatio false 0 den = .finite false m := by
  have none : (wholeMagnitude 0 (by decide)).quanta = 0 := by
    rw [quanta_wholeMagnitude, Nat.zero_mul]
  exact ⟨_, none, fun den pos => ofRatio_exact false pos (by rw [none, Nat.zero_mul, Nat.zero_mul])⟩

/-- A whole number of seconds leaves no microseconds. -/
theorem splitSeconds_whole {m : Magnitude} {n : Nat} (whole : m.quanta = n * one) :
    splitSeconds false m = ((n : Int), 0) := by
  have micros : ((ofRatio false 0 one).mulNat 1000000).roundInt? = some 0 := by
    obtain ⟨m, none, zero⟩ := ofRatio_zero
    rw [zero one Binary64.one_pos, mulNat, none, Nat.zero_mul, zero one Binary64.one_pos]
    simp only [roundInt?, none]
    simp [roundHalfEven, Binary64.one_pos]
  have seconds : ((n * one : Nat) : Int) / (one : Nat) = n := by
    exact_mod_cast Nat.mul_div_cancel n Binary64.one_pos
  simp only [splitSeconds, whole, Nat.mul_mod_left, micros, seconds]
  rfl

theorem roundInt_nonneg {x : Binary64} (positive : x.isNegative = false) :
    0 ≤ x.roundInt?.getD 0 := by
  cases x with
  | finite negative m =>
    cases positive
    exact Int.natCast_nonneg _
  | _ => exact Int.le_refl 0

theorem isNegative_ofRatio (negative : Bool) (num den : Nat) :
    (ofRatio negative num den).isNegative = negative := by
  unfold ofRatio ofQuanta
  split <;> rfl

theorem isNegative_mulNat (x : Binary64) (n : Nat) : (x.mulNat n).isNegative = x.isNegative := by
  cases x with
  | finite negative m => exact isNegative_ofRatio ..
  | _ => rfl

/-- Splitting off the microseconds drops no second. -/
theorem le_splitSeconds (m : Magnitude) :
    ((m.quanta / one : Nat) : Int) ≤ (splitSeconds false m).1 ∧ 0 ≤ (splitSeconds false m).2 := by
  have positive : ((ofRatio false (m.quanta % one) one).mulNat 1000000).isNegative = false := by
    rw [isNegative_mulNat, isNegative_ofRatio]
  have nonneg := roundInt_nonneg positive
  simp only [splitSeconds, Bool.false_eq_true, if_false]
  generalize ((ofRatio false (m.quanta % one) one).mulNat 1000000).roundInt?.getD 0 = micros at *
  split
  · exact ⟨by omega, by omega⟩
  · rw [if_neg (by omega)]
    exact ⟨Int.le_refl _, nonneg⟩

theorem micros_of_ofMicros {n : Int} {w : WallTime} (h : WallTime.ofMicros? n = some w) :
    (w.micros : Int) = n := by
  unfold WallTime.ofMicros? at h
  split at h
  · split at h
    · rename_i nonneg
      cases h
      exact Int.toNat_of_nonneg nonneg
    · cases h
  · cases h

theorem ofMicros_natCast {n : Nat} (in_range : n < 3652059 * microsPerDay) :
    WallTime.ofMicros? n = some ⟨n, in_range⟩ := by
  rw [WallTime.ofMicros?, dif_pos (by rwa [Int.toNat_natCast]), if_pos (Int.natCast_nonneg n)]
  rfl

theorem ofSeconds_eq_ok {seconds micros : Int} {i : Instant}
    (h : ofSeconds seconds micros = .ok i) :
    WallTime.ofMicros? (WallTime.epochMicros + seconds * 1000000 + micros) = some i.wall := by
  unfold ofSeconds at h
  dsimp only at h
  repeat' split at h
  all_goals cases h
  assumption

theorem yearOf_bounds (n : Int) :
    400 * (n / 146097) + 1 ≤ Date.yearOf n ∧ Date.yearOf n ≤ 400 * (n / 146097) + 400 := by
  obtain ⟨centuries, fours, years, day, cycle, hc, hf, hy, -⟩ :=
    Date.splitCycle_parts (n := (n % 146097).toNat) (by omega)
  simp only [Date.yearOf, cycle]
  omega

/-- So many whole seconds after 1970, up to the end of year 9999. -/
theorem ofSeconds_whole {seconds : Int} {w : WallTime} (low : 0 ≤ seconds)
    (high : seconds ≤ 253402300799)
    (wall : WallTime.ofMicros? (WallTime.epochMicros + seconds * 1000000) = some w) :
    ofSeconds seconds 0 = .ok (.ofUtc w) := by
  obtain ⟨least, most⟩ := yearOf_bounds (719162 + seconds / 86400)
  have near : ¬ (seconds < -clockLimit ∨ clockLimit < seconds) := by
    simp only [clockLimit]
    omega
  have in_range : ¬ (Date.yearOf (719162 + seconds / 86400) - 1900 < -yearLimit ∨
      yearLimit ≤ Date.yearOf (719162 + seconds / 86400) - 1900) := by
    simp only [yearLimit]
    omega
  simp only [ofSeconds, if_neg near, if_neg in_range, Int.add_zero, wall]

def ofDouble (read : Binary64 → Except InstantFault Instant) :
    Option Binary64 → Except InstantFault Instant
  | some x => read x
  | none => .error .beyondReals

def inSeconds (n : Int) : Except InstantFault Instant :=
  ofDouble ofRealSeconds (Binary64.ofInt? n)

def inMillis (n : Int) : Except InstantFault Instant :=
  ofDouble (fun x => ofRealSeconds (x.divNat 1000)) (Binary64.ofInt? n)

theorem millisLimit_short : millisLimit < 2 ^ 53 := by decide

theorem toInt?_eq_some {x : Binary64} {n : Int} (h : x.toInt? = some n) (pos : 0 < n) :
    ∃ m : Magnitude, x = .finite false m ∧ m.quanta = n.natAbs * one := by
  have unit : 0 < (one : Int) := Int.natCast_pos.mpr Binary64.one_pos
  have value {q : Int} (whole : (if q % one = 0 then some (q / one) else none) = some n) :
      q = n * one := by
    split at whole
    · rename_i exact
      rw [← Option.some.inj whole, Int.ediv_mul_cancel (Int.dvd_of_emod_eq_zero exact)]
    · cases whole
  have some_quanta : 0 < n * one := Int.mul_pos pos unit
  cases x with
  | finite negative m =>
    cases negative with
    | true =>
      have below : -(m.quanta : Int) = n * one := value h
      omega
    | false =>
      have quanta : (m.quanta : Int) = n * one := value h
      refine ⟨m, rfl, ?_⟩
      rw [← Int.natAbs_natCast m.quanta, quanta, Int.natAbs_mul, Int.natAbs_natCast]
  | _ => cases h

/-- Numbers from the limit on are too large for seconds: the calendar ends before. -/
theorem ofRealSeconds_far {x : Binary64} (far : (Binary64.ofNat millisLimit).le x) (i : Instant) :
    ofRealSeconds x ≠ .ok i := by
  have limit : Binary64.ofNat millisLimit = .finite false (wholeMagnitude _ millisLimit_short) :=
    ofRatio_whole false millisLimit_short
  rw [limit] at far
  intro read
  cases x with
  | nan => cases read
  | infinite negative => cases read
  | finite negative m =>
    rw [le_finite, if_neg Bool.false_ne_true, quanta_wholeMagnitude] at far
    have unit := Binary64.one_pos
    cases negative with
    | true =>
      have some_limit : 0 < millisLimit * one := Nat.mul_pos (by decide) unit
      rw [if_pos rfl] at far
      omega
    | false =>
      rw [if_neg Bool.false_ne_true, Int.ofNat_le] at far
      have many : millisLimit ≤ m.quanta / one := (Nat.le_div_iff_mul_le unit).mpr far
      obtain ⟨least, micros⟩ := le_splitSeconds m
      have wall := micros_of_ofMicros (ofSeconds_eq_ok read)
      have in_range := i.wall.inRange
      simp only [WallTime.epochMicros, microsPerDay, millisLimit] at wall in_range many
      omega

/-- From the limit on a whole number is one of milliseconds. -/
theorem ofInt_eq (n : Int) : ofInt n = if millisLimit ≤ n then inMillis n else inSeconds n := by
  rw [ofInt, inMillis, inSeconds]
  cases double : Binary64.ofInt? n with
  | none => rw [ofReal?, ofDouble, ofDouble, ite_self]
  | some x =>
    have limit : (Binary64.ofNat millisLimit).le x ↔ (millisLimit : Int) ≤ n :=
      ofNat_le_iff millisLimit_short double
    rw [ofReal?, ofReal, ofDouble, ofDouble, toSeconds]
    by_cases beyond : (millisLimit : Int) ≤ n
    · rw [if_pos beyond, if_pos (limit.mpr beyond)]
    · rw [if_neg beyond, if_neg (limit.not.mpr beyond)]

section

variable {s : Int} {w : WallTime}

/-- Counts that are not negative and of at most 53 bits are doubles, and each is one double. -/
theorem ofInt?_of_count {n : Int} (low : 0 ≤ n) (short : n.natAbs < 2 ^ 53) :
    Binary64.ofInt? n = some (.finite false (wholeMagnitude n.natAbs short)) := by
  rw [ofInt?_of_short short, decide_eq_false (Int.not_lt.mpr low)]

theorem ofInt?_eq_some_iff {n : Int} {x : Binary64} (pos : 0 < n) (short : n.natAbs < 2 ^ 53) :
    Binary64.ofInt? n = some x ↔ x.toInt? = some n := by
  have unit : (one : Int) ≠ 0 := Int.natCast_ne_zero.mpr Binary64.one_pos.ne'
  have size : (n.natAbs : Int) = n := Int.natAbs_of_nonneg pos.le
  rw [ofInt?_of_count pos.le short, Option.some.injEq]
  constructor
  · rintro rfl
    simp only [toInt?, quanta?, Bool.false_eq_true, if_false, quanta_wholeMagnitude,
      Int.natCast_mul, size, Int.mul_emod_left, if_true, Int.mul_ediv_cancel _ unit]
  · intro value
    obtain ⟨⟨quanta, fits⟩, rfl, rfl⟩ := toInt?_eq_some value pos
    rfl

theorem inSeconds_whole (low : 0 ≤ s) (high : s ≤ 253402300799)
    (wall : WallTime.ofMicros? (WallTime.epochMicros + s * 1000000) = some w) :
    inSeconds s = .ok (.ofUtc w) := by
  have short : s.natAbs < 2 ^ 53 := by omega
  have size : (s.natAbs : Int) = s := Int.natAbs_of_nonneg low
  have split : splitSeconds false (wholeMagnitude s.natAbs short) = (s, 0) := by
    rw [splitSeconds_whole (quanta_wholeMagnitude short), size]
  rw [inSeconds, ofInt?_of_count low short, ofDouble, ofRealSeconds, split]
  exact ofSeconds_whole low high wall

theorem inMillis_whole (low : 0 ≤ s) (high : s ≤ 253402300799)
    (wall : WallTime.ofMicros? (WallTime.epochMicros + s * 1000000) = some w) :
    inMillis (1000 * s) = .ok (.ofUtc w) := by
  have short : s.natAbs < 2 ^ 53 := by omega
  have short' : (1000 * s).natAbs < 2 ^ 53 := by omega
  have quotient : Binary64.divNat (.finite false (wholeMagnitude (1000 * s).natAbs short')) 1000 =
      .finite false (wholeMagnitude s.natAbs short) := by
    refine ofRatio_exact false (Nat.mul_pos (by decide) Binary64.one_pos) ?_
    have thousand : (1000 * s).natAbs = 1000 * s.natAbs := Int.natAbs_mul ..
    rw [quanta_wholeMagnitude, quanta_wholeMagnitude, thousand]
    ring
  have seconds := inSeconds_whole low high wall
  rw [inSeconds, ofInt?_of_count low short, ofDouble] at seconds
  rw [inMillis, ofInt?_of_count (by omega) short', ofDouble, quotient, seconds]

end

/-- From September 2001 to the end of the calendar, the seconds and the milliseconds since 1970 of a
full second are read as that second, given as whole numbers or as doubles. A whole number is taken
for milliseconds from the limit on and for seconds before, and no number from the limit on could be
meant as seconds. -/
theorem seconds_and_millis_agree :
    (∀ s : Int, 10 ^ 9 ≤ s → s ≤ 253402300799 → ∃ epoch w,
      WallTime.of? ⟨1970, 1, 1⟩ ⟨0, 0, 0, 0⟩ = some epoch ∧
        epoch.advance? (s * 1000000) = some w ∧
        ∀ n, n = s ∨ n = 1000 * s → ofInt n = .ok (.ofUtc w) ∧
          (∃ x : Binary64, x.toInt? = some n) ∧
          ∀ x : Binary64, x.toInt? = some n → ofReal x = .ok (.ofUtc w)) ∧
      ∀ n : Int, ofInt n = (if millisLimit ≤ n then inMillis n else inSeconds n) ∧
        (millisLimit ≤ n → ∀ i, inSeconds n ≠ .ok i) := by
  constructor
  · intro s low high
    have in_range : WallTime.epochMicros + s.toNat * 1000000 < 3652059 * microsPerDay := by
      simp only [WallTime.epochMicros, microsPerDay]
      omega
    have count : WallTime.epochMicros + s * 1000000 =
        ((WallTime.epochMicros + s.toNat * 1000000 : Nat) : Int) := by
      omega
    have wall : WallTime.ofMicros? (WallTime.epochMicros + s * 1000000) = some ⟨_, in_range⟩ := by
      rw [count, ofMicros_natCast in_range]
    refine ⟨⟨WallTime.epochMicros, by decide⟩, ⟨_, in_range⟩, by decide, wall, ?_⟩
    have read (n : Int) (either : n = s ∨ n = 1000 * s) :
        ofInt n = .ok (.ofUtc ⟨_, in_range⟩) := by
      have limit : (millisLimit : Int) = 1000000000000 := rfl
      rcases either with rfl | rfl
      · rw [ofInt_eq, if_neg (by omega), inSeconds_whole (by omega) high wall]
      · rw [ofInt_eq, if_pos (by omega), inMillis_whole (by omega) high wall]
    intro n either
    have pos : 0 < n := by omega
    have short : n.natAbs < 2 ^ 53 := by omega
    have exact_count := (ofInt?_eq_some_iff pos short).mp (ofInt?_of_count pos.le short)
    refine ⟨read n either, ⟨_, exact_count⟩, ?_⟩
    intro x value
    have double := (ofInt?_eq_some_iff pos short).mpr value
    have whole := read n either
    rwa [ofInt, double] at whole
  · intro n
    refine ⟨ofInt_eq n, fun beyond i read => ?_⟩
    rw [inSeconds] at read
    cases double : Binary64.ofInt? n with
    | none =>
      rw [double] at read
      cases read
    | some x =>
      rw [double] at read
      exact ofRealSeconds_far ((ofNat_le_iff millisLimit_short double).mpr beyond) i read

/-- The last second of the year 2025, in seconds and in milliseconds. -/
theorem last_second_of_2025 :
    ∃ w : WallTime, ofInt 1767225599 = .ok (.ofUtc w) ∧ ofInt 1767225599000 = .ok (.ofUtc w) ∧
      w.date = ⟨2025, 12, 31⟩ ∧ w.time = ⟨23, 59, 59, 0⟩ ∧
      ∀ i, inSeconds 1767225599000 ≠ .ok i := by
  obtain ⟨agree, apart⟩ := seconds_and_millis_agree
  obtain ⟨epoch, w, start, later, read⟩ := agree 1767225599 (by decide) (by decide)
  have at_start : epoch = ⟨WallTime.epochMicros, by decide⟩ :=
    Option.some.inj (start.symm.trans (by decide))
  subst at_start
  have at_end : w = ⟨63902822399000000, by decide⟩ := Option.some.inj (later.symm.trans (by decide))
  subst at_end
  exact ⟨_, (read _ (.inl rfl)).1, (read _ (.inr rfl)).1, by decide, by decide,
    (apart _).2 (by decide)⟩

end ControlPanel.Instant
