import ControlPanel.Proofs.Digits

/-!
# Times read back

Every day number has one date, and the record form of an instant whose clock is whole minutes ahead
of universal time is read as that instant.
-/
namespace ControlPanel

namespace Date

/-- A day of a 400-year cycle lies so many centuries, groups of four years, and years after the
start. -/
theorem splitCycle_parts {n : Nat} (h : n < 146097) :
    ∃ centuries fours years day, splitCycle n = (100 * centuries + 4 * fours + years, day) ∧
      centuries ≤ 3 ∧ fours ≤ 24 ∧ years ≤ 3 ∧
      n = 36524 * centuries + 1461 * fours + 365 * years + day ∧ day ≤ 365 ∧
      (day = 365 → years = 3 ∧ (fours = 24 → centuries = 3)) := by
  refine ⟨min (n / 36524) 3, (n - min (n / 36524) 3 * 36524) / 1461,
    min ((n - min (n / 36524) 3 * 36524) % 1461 / 365) 3,
    (n - min (n / 36524) 3 * 36524) % 1461 -
      min ((n - min (n / 36524) 3 * 36524) % 1461 / 365) 3 * 365, rfl, ?_⟩
  omega

theorem splitYear_parts (lengths : List Nat) {n : Nat} (h : n < lengths.sum) :
    ∃ months days, splitYear lengths n = (months, days) ∧ months < lengths.length ∧
      days < lengths.getD months 0 ∧ (lengths.take months).sum + days = n := by
  induction lengths generalizing n with
  | nil => simp at h
  | cons length rest ih =>
    by_cases first : n < length
    · exact ⟨0, n, by simp [splitYear, first], by simp, by simpa using first, by simp⟩
    · obtain ⟨months, days, split, within, short, whole⟩ := ih (n := n - length) (by
        rw [List.sum_cons] at h
        omega)
      refine ⟨months + 1, days, by simp [splitYear, first, split], by simpa using within,
        by simpa using short, ?_⟩
      rw [List.take_succ_cons, List.sum_cons]
      omega

theorem length_monthLengths (leap : Bool) : (monthLengths leap).length = 12 := rfl

theorem sum_monthLengths (leap : Bool) :
    (monthLengths leap).sum = if leap then 366 else 365 := by
  cases leap <;> rfl

theorem isLeapYear_parts (cycles : Nat) {centuries fours years : Nat} (hc : centuries ≤ 3)
    (hf : fours ≤ 24) (hy : years ≤ 3) : isLeapYear (400 * cycles + (100 * centuries + 4 * fours + years) + 1) =
      decide (years = 3 ∧ (fours = 24 → centuries = 3)) := by
  rw [Bool.eq_iff_iff]
  simp only [isLeapYear, Bool.and_eq_true, Bool.or_eq_true, decide_eq_true_eq, ne_eq]
  omega

theorem daysBeforeYear_parts (cycles : Nat) {centuries fours years : Nat} (hc : centuries ≤ 3)
    (hf : fours ≤ 24) (hy : years ≤ 3) :
    daysBeforeYear (400 * cycles + (100 * centuries + 4 * fours + years) + 1) =
      146097 * cycles + 36524 * centuries + 1461 * fours + 365 * years := by
  simp only [daysBeforeYear]
  omega

/-- Every day number up to the end of year 9999 has a date. -/
theorem ofDays_parts {n : Nat} (h : n < 3652059) : (ofDays n).Valid ∧ (ofDays n).toDays = n := by
  obtain ⟨centuries, fours, years, day, cycle, hc, hf, hy, whole, short, last⟩ :=
    splitCycle_parts (Nat.mod_lt n (by decide : 0 < 146097))
  have leap := isLeapYear_parts (n / 146097) hc hf hy
  have before := daysBeforeYear_parts (n / 146097) hc hf hy
  have within : day < (monthLengths
      (isLeapYear (400 * (n / 146097) + (100 * centuries + 4 * fours + years) + 1))).sum := by
    rw [sum_monthLengths, leap]
    simp only [decide_eq_true_eq]
    split <;> omega
  obtain ⟨months, days, year, few, inMonth, sum⟩ := splitYear_parts _ within
  have date : ofDays n = ⟨400 * (n / 146097) + (100 * centuries + 4 * fours + years) + 1,
      months + 1, days + 1⟩ := by
    simp only [ofDays, cycle, year]
  rw [length_monthLengths] at few
  have counted : daysBeforeYear (400 * (n / 146097) + (100 * centuries + 4 * fours + years) + 1) +
      day = n := by
    rw [before]
    omega
  have year_le : 400 * (n / 146097) + (100 * centuries + 4 * fours + years) + 1 ≤ 9999 := by
    omega
  rw [date]
  refine ⟨⟨Nat.le_add_left .., year_le, Nat.le_add_left .., few, Nat.le_add_left .., inMonth⟩, ?_⟩
  simp only [toDays, Nat.add_sub_cancel, ← List.sum_eq_foldl_nat]
  omega

end Date

namespace TimeOfDay

theorem ofMicros_parts {n : Nat} (h : n < microsPerDay) :
    (ofMicros n).Valid ∧ (ofMicros n).toMicros = n := by
  simp only [Valid, toMicros, ofMicros, microsPerDay] at h ⊢
  omega

end TimeOfDay

namespace WallTime

theorem day_lt (w : WallTime) : w.micros / microsPerDay < 3652059 := by
  rw [Nat.div_lt_iff_lt_mul (by decide)]
  exact w.inRange

theorem of_date_time (w : WallTime) : of? w.date w.time = some w := by
  obtain ⟨valid_date, date⟩ := Date.ofDays_parts w.day_lt
  obtain ⟨micros, inRange⟩ := w
  obtain ⟨valid_time, time⟩ :=
    TimeOfDay.ofMicros_parts (Nat.mod_lt micros (by decide : 0 < microsPerDay))
  have whole : micros / microsPerDay * microsPerDay + micros % microsPerDay = micros :=
    Nat.div_add_mod' ..
  simp only [of?, WallTime.date, WallTime.time, valid_date, valid_time, and_self, if_true, date, time,
    whole, ofMicros?, Int.toNat_natCast, inRange, dite_true, Int.natCast_nonneg]

end WallTime

theorem Date.monthLength_le (year month : Nat) : Date.monthLength year month ≤ 31 := by
  have short (leap : Bool) : ∀ k < 12, (monthLengths leap).getD k 0 ≤ 31 := by
    cases leap <;> decide
  rcases Nat.lt_or_ge (month - 1) 12 with within | beyond
  · exact short _ _ within
  · rw [monthLength, List.getD_eq_getElem?_getD,
      List.getElem?_eq_none (by rwa [length_monthLengths])]
    exact Nat.zero_le _

theorem takeMark_cons (marks : List Char) {c : Char} (rest : List Char) (h : marks.contains c) :
    takeMark? marks (c :: rest) = some rest := by
  rw [takeMark?, if_pos h]

theorem Date.take_digits {d : Date} (h : d.Valid) (rest : List Char) :
    Date.take? (WallTime.dateDigits d ++ rest) = some (d, rest) := by
  obtain ⟨_, year, _, month, _, day⟩ := h
  have short := monthLength_le d.year d.month
  have year_read := takeFixed_decimalDigits 4 ('-' :: (Text.decimalDigits 2 d.month ++
    '-' :: (Text.decimalDigits 2 d.day ++ rest))) (by omega : d.year < 10 ^ 4)
  have month_read := takeFixed_decimalDigits 2
    ('-' :: (Text.decimalDigits 2 d.day ++ rest)) (by omega : d.month < 10 ^ 2)
  have day_read := takeFixed_decimalDigits 2 rest (by omega : d.day < 10 ^ 2)
  simp only [Date.take?, WallTime.dateDigits, List.append_assoc, List.cons_append, year_read,
    month_read, day_read, takeMark_cons ['-'] (c := '-') _ rfl, bind, Option.bind, pure]

namespace TimeOfDay

def ZoneStarts (rest : List Char) : Prop :=
  ∀ c ∈ rest.head?, c = 'Z' ∨ c = '+' ∨ c = '-'

theorem ZoneStarts.digits {rest : List Char} (h : ZoneStarts rest) : DigitsEnd rest := by
  intro c hc
  rcases h c hc with rfl | rfl | rfl <;> rfl

theorem takeFraction_digits {micro : Nat} {rest : List Char} (h : micro < 1000000)
    (zone : ZoneStarts rest) :
    takeFraction? (fractionDigits micro ++ rest) = some (micro, rest) := by
  by_cases full : micro = 0
  · subst full
    cases rest with
    | nil => rfl
    | cons c rest =>
      have other : takeMark? ['.', ','] (c :: rest) = none := by
        rcases zone c rfl with rfl | rfl | rfl <;> rfl
      simp [fractionDigits, takeFraction?, other]
  · have digits : takeDigits (Text.decimalDigits 6 micro ++ rest) =
        (Text.decimalDigits 6 micro, rest) :=
      takeDigits_append (fun c => isDigit_decimalDigits) zone.digits
    have some_digit : (Text.decimalDigits 6 micro).isEmpty = false := by
      rw [List.isEmpty_eq_false_iff, ← List.length_pos_iff, length_decimalDigits]
      decide
    have value : fractionMicros (Text.decimalDigits 6 micro) = micro := by
      rw [fractionMicros, List.take_append_of_le_length (by simp), List.take_of_length_le (by simp),
        digitsValue_decimalDigits (by omega)]
    simp [fractionDigits, full, takeFraction?, takeMark?, digits, some_digit, value]

theorem take_digits {t : TimeOfDay} {rest : List Char} (h : t.Valid) (zone : ZoneStarts rest) :
    take? (t.clockDigits ++ (fractionDigits t.micro ++ rest)) = some (t, rest) := by
  obtain ⟨hour, minute, second, micro⟩ := h
  have hour_read := takeFixed_decimalDigits 2 (':' :: (Text.decimalDigits 2 t.minute ++
    ':' :: (Text.decimalDigits 2 t.second ++ (fractionDigits t.micro ++ rest))))
    (by omega : t.hour < 10 ^ 2)
  have minute_read := takeFixed_decimalDigits 2
    (':' :: (Text.decimalDigits 2 t.second ++ (fractionDigits t.micro ++ rest)))
    (by omega : t.minute < 10 ^ 2)
  have second_read := takeFixed_decimalDigits 2 (fractionDigits t.micro ++ rest)
    (by omega : t.second < 10 ^ 2)
  simp only [take?, takeSeconds?, clockDigits, List.append_assoc, List.cons_append, hour_read,
    minute_read, second_read, takeFraction_digits micro zone,
    takeMark_cons [':'] (c := ':') _ rfl, bind, Option.bind, pure]

end TimeOfDay

namespace Offset

/-- Records keep the hours and minutes of an offset only. -/
def IsWholeMinutes (o : Offset) : Prop := o.micros % 60000000 = 0

instance (o : Offset) : Decidable o.IsWholeMinutes := inferInstanceAs (Decidable (_ = _))

theorem utc_isWholeMinutes : utc.IsWholeMinutes := rfl

theorem some_utc_isWholeMinutes : ∀ o ∈ some utc, o.IsWholeMinutes := by
  intro o same
  rw [← Option.some.inj same]
  exact utc_isWholeMinutes

theorem zoneStarts_recordDigits (o : Offset) : TimeOfDay.ZoneStarts o.recordDigits := by
  unfold recordDigits
  split
  · rintro c ⟨⟩
    exact .inl rfl
  · rintro c ⟨⟩
    by_cases negative : o.micros < 0 <;> simp [sign, negative]

theorem readClock_digits (negative : Bool) {minutes : Nat} (h : minutes < 6000) :
    readClock? negative
        (Text.decimalDigits 2 (minutes / 60) ++ ':' :: Text.decimalDigits 2 (minutes % 60)) =
      of? (if negative then -(60000000 * minutes : Int) else 60000000 * minutes) := by
  have few : minutes % 60 < 60 := Nat.mod_lt _ (by decide)
  have hours_read := takeFixed_decimalDigits 2
    (':' :: Text.decimalDigits 2 (minutes % 60)) (by omega : minutes / 60 < 10 ^ 2)
  have minutes_read := takeFixed_decimalDigits 2 [] (by omega : minutes % 60 < 10 ^ 2)
  rw [List.append_nil] at minutes_read
  simp only [readClock?, hours_read, takeMark_cons [':'] (c := ':') _ rfl,
    Option.getD_some, minutes_read, bind, Option.bind, few, List.isEmpty_nil, and_self, if_true,
    Nat.div_add_mod, ofSeconds?]
  congr 1
  split <;> omega

theorem readZone_recordDigits {o : Offset} (whole : o.IsWholeMinutes) :
    readZone? o.recordDigits = some (some o) := by
  obtain ⟨micros, inRange⟩ := o
  simp only [IsWholeMinutes] at whole
  unfold recordDigits
  split
  · rename_i none_left
    simp only [roundedSeconds] at none_left
    have same : micros = 0 := by omega
    subst same
    rfl
  · obtain ⟨minutes, minutes_eq⟩ :
        ∃ minutes, minutes = roundedSeconds ⟨micros, inRange⟩ / 60 := ⟨_, rfl⟩
    rw [← minutes_eq]
    simp only [roundedSeconds] at minutes_eq
    have read := readClock_digits (decide (micros < 0)) (by omega : minutes < 6000)
    have size : (if decide (micros < 0) = true then -(60000000 * minutes : Int)
        else 60000000 * minutes) = micros := by
      simp only [decide_eq_true_eq]
      split <;> omega
    rw [size, of?, dif_pos inRange] at read
    by_cases negative : micros < 0
    · simp only [negative, decide_true] at read
      simp [readZone?, sign, negative, minusMarks, read]
    · simp only [negative, decide_false] at read
      simp [readZone?, sign, negative, read]

end Offset

/-- What a date, a mark, a time of day and a zone are read as. -/
theorem ClockTime.readCalendar_parts {cs rest zone : List Char} {d : Date} {t : TimeOfDay}
    {offset? : Option Offset} {wall : WallTime} (date : Date.take? cs = some (d, 'T' :: rest))
    (time : TimeOfDay.take? rest = some (t, zone)) (offset : Offset.readZone? zone = some offset?)
    (made : WallTime.of? d t = some wall) : readCalendar? cs = some ⟨wall, offset?⟩ := by
  have mark : takeMark? ['T', 't', ' ', '_'] ('T' :: rest) = some rest := takeMark_cons _ rest rfl
  simp only [readCalendar?, date, Option.bind_eq_bind, Option.bind_some, List.isEmpty_cons,
    Bool.false_eq_true, if_false, mark, time, offset, made, Option.pure_def]

namespace WallTime

theorem valid_date (w : WallTime) : w.date.Valid :=
  (Date.ofDays_parts w.day_lt).1

theorem valid_time (w : WallTime) : w.time.Valid :=
  (TimeOfDay.ofMicros_parts (Nat.mod_lt w.micros (by decide : 0 < microsPerDay))).1

end WallTime

namespace Instant

/-- The record form of an instant is read as that instant. -/
theorem read_recordText {i : Instant} (whole : i.offset.IsWholeMinutes) :
    read? i.recordText = some i := by
  obtain ⟨wall, offset⟩ := i
  have calendar := ClockTime.readCalendar_parts
    (Date.take_digits wall.valid_date ('T' :: (wall.time.clockDigits ++
      (TimeOfDay.fractionDigits wall.time.micro ++ offset.recordDigits))))
    (TimeOfDay.take_digits wall.valid_time (Offset.zoneStarts_recordDigits offset))
    (Offset.readZone_recordDigits whole) wall.of_date_time
  have text : wall.digits ++ offset.recordDigits = WallTime.dateDigits wall.date ++
      'T' :: (wall.time.clockDigits ++
        (TimeOfDay.fractionDigits wall.time.micro ++ offset.recordDigits)) := by
    simp [WallTime.digits]
  rw [← text] at calendar
  simp [read?, ClockTime.read?, recordText, calendar, ClockTime.instant]

end Instant

theorem Offset.micros_of_seconds {seconds : Int} {o : Offset} (h : ofSeconds? seconds = some o) :
    o.micros = seconds * 1000000 := by
  unfold ofSeconds? of? at h
  split at h
  · rw [← Option.some.inj h]
  · exact nomatch h

theorem Offset.readClock_isWholeMinutes {negative : Bool} {cs : List Char} {o : Offset}
    (h : readClock? negative cs = some o) : o.IsWholeMinutes := by
  simp only [readClock?, Option.bind_eq_bind, Option.bind_eq_some_iff] at h
  obtain ⟨⟨hours, rest⟩, -, ⟨minutes, rest'⟩, -, made⟩ := h
  split at made
  · have size := micros_of_seconds made
    simp only [IsWholeMinutes]
    split at size <;> omega
  · exact nomatch made

theorem Offset.readZone_isWholeMinutes {cs : List Char} {offset? : Option Offset}
    (h : readZone? cs = some offset?) : ∀ o ∈ offset?, o.IsWholeMinutes := by
  have signed {negative : Bool} {rest : List Char}
      (h : (readClock? negative rest).map some = some offset?) :
      ∀ o ∈ offset?, o.IsWholeMinutes := by
    obtain ⟨o, read, rfl⟩ := Option.map_eq_some_iff.mp h
    exact fun o' same => Option.some.inj same ▸ readClock_isWholeMinutes read
  unfold readZone? at h
  split at h
  · rw [← Option.some.inj h]
    exact fun _ none_read => nomatch none_read
  · split at h
    · rw [← Option.some.inj h]
      exact some_utc_isWholeMinutes
    · split at h
      · exact signed h
      · split at h
        · exact signed h
        · exact nomatch h

namespace ClockTime

theorem instant_isWholeMinutes {time : ClockTime}
    (h : ∀ o ∈ time.offset?, o.IsWholeMinutes) : time.instant.offset.IsWholeMinutes := by
  unfold instant
  cases offset : time.offset? with
  | none => exact Offset.utc_isWholeMinutes
  | some o => exact h o offset

theorem readCalendar_isWholeMinutes {cs : List Char} {t : ClockTime}
    (h : readCalendar? cs = some t) : ∀ o ∈ t.offset?, o.IsWholeMinutes := by
  simp only [readCalendar?, Option.bind_eq_bind, Option.bind_eq_some_iff] at h
  obtain ⟨⟨date, rest⟩, -, made⟩ := h
  split at made
  · obtain ⟨wall, -, same⟩ := Option.bind_eq_some_iff.mp made
    rw [← Option.some.inj same]
    exact fun _ none_read => nomatch none_read
  · simp only [Option.bind_eq_some_iff] at made
    obtain ⟨rest, -, ⟨time, rest⟩, -, offset?, zone, wall, -, same⟩ := made
    exact Option.some.inj same ▸ Offset.readZone_isWholeMinutes zone

theorem ofMicros_isWholeMinutes {micros : Int} {t : ClockTime} (h : ofMicros? micros = some t) :
    ∀ o ∈ t.offset?, o.IsWholeMinutes := by
  obtain ⟨wall, -, rfl⟩ := Option.map_eq_some_iff.mp h
  exact Offset.some_utc_isWholeMinutes

theorem readCount_isWholeMinutes {cs : List Char} {t : ClockTime} (h : readCount? cs = some t) :
    ∀ o ∈ t.offset?, o.IsWholeMinutes := by
  unfold readCount? at h
  dsimp only at h
  split at h
  · split at h
    · cases h
    · exact ofMicros_isWholeMinutes h
  · obtain ⟨x, -, counted⟩ := Option.bind_eq_some_iff.mp h
    obtain ⟨quanta, -, counted⟩ := Option.bind_eq_some_iff.mp counted
    obtain ⟨micros, -, made⟩ := Option.bind_eq_some_iff.mp counted
    exact ofMicros_isWholeMinutes made
  · cases h

/-- A time that is read from a text lies in a zone of whole minutes. -/
theorem read_isWholeMinutes {s : String} {t : ClockTime} (h : read? s = some t) :
    ∀ o ∈ t.offset?, o.IsWholeMinutes := by
  unfold read? at h
  split at h
  · rename_i calendar
    cases h
    exact readCalendar_isWholeMinutes calendar
  · exact readCount_isWholeMinutes h

end ClockTime

namespace Instant

theorem ofSeconds_isWholeMinutes {seconds micros : Int} {i : Instant}
    (h : ofSeconds seconds micros = .ok i) : i.offset.IsWholeMinutes := by
  unfold ofSeconds at h
  dsimp only at h
  repeat' split at h
  all_goals cases h
  exact Offset.utc_isWholeMinutes

theorem ofReal_isWholeMinutes {x : Binary64} {i : Instant} (h : ofReal x = .ok i) :
    i.offset.IsWholeMinutes := by
  unfold ofReal ofRealSeconds at h
  split at h
  · cases h
  · cases h
  · exact ofSeconds_isWholeMinutes h

theorem ofReal?_eq_ok {x? : Option Binary64} {i : Instant} (h : ofReal? x? = .ok i) :
    ∃ x, ofReal x = .ok i := by
  cases x? with
  | some x => exact ⟨x, h⟩
  | none => simp [ofReal?] at h

theorem ofInt_isWholeMinutes {n : Int} {i : Instant} (h : ofInt n = .ok i) :
    i.offset.IsWholeMinutes := by
  obtain ⟨x, counted⟩ := ofReal?_eq_ok h
  exact ofReal_isWholeMinutes counted

/-- A time without a zone counts as universal. -/
theorem read_isWholeMinutes {s : String} {i : Instant} (h : read? s = some i) :
    i.offset.IsWholeMinutes := by
  obtain ⟨t, read, rfl⟩ := Option.map_eq_some_iff.mp h
  exact ClockTime.instant_isWholeMinutes (ClockTime.read_isWholeMinutes read)

end Instant

end ControlPanel
