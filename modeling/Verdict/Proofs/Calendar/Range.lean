import Verdict.Calendar.Instant

/-!
# Proofs/Calendar/Range — the instants that have a day

    day count    1 ……………………… lastDayCount
    instant      |  day 1  |  …  |  the 31st of December of year 9999  |

A day count is that of a day of the calendar exactly between 1 and the last day of the last year
(`Date.isSome_ofDayCount?`), so a `DateTime` can be put into universal time exactly when its instant
falls on one of these days (`DateTime.toUniversal?_eq_none_iff`).
-/

namespace Verdict

namespace Date

/-- The day count of the last day of the calendar. -/
def lastDayCount : Nat := daysBeforeYear (maxYear + 1)

/-- The days of a month and of so many after it. -/
def daysOfMonths (year : Nat) : Nat → Nat → Nat
  | 0, month => daysInMonth year month
  | months + 1, month => daysInMonth year month + daysOfMonths year months (month + 1)

/-- A day of a year is a day of one of its months. -/
theorem monthOfDay_spec (year : Nat) : ∀ {months month rest : Nat},
    rest < daysOfMonths year months month →
      month ≤ (monthOfDay year months month rest).1 ∧
      (monthOfDay year months month rest).1 ≤ month + months ∧
      1 ≤ (monthOfDay year months month rest).2 ∧
      (monthOfDay year months month rest).2 ≤
        daysInMonth year (monthOfDay year months month rest).1
  | 0, month, rest, h => by
    rw [daysOfMonths] at h
    exact ⟨Nat.le_refl _, Nat.le_refl _, Nat.le_add_left .., h⟩
  | months + 1, month, rest, h => by
    rw [daysOfMonths] at h
    rw [monthOfDay]
    split
    · next hrest => exact ⟨Nat.le_refl _, Nat.le_add_right .., Nat.le_add_left .., hrest⟩
    · have hlater := @monthOfDay_spec year months (month + 1) (rest - daysInMonth year month)
        (by omega)
      exact ⟨by omega, by omega, hlater.2.2⟩

/-- A year has at least 365 days. -/
theorem le_daysOfMonths (year : Nat) : 365 ≤ daysOfMonths year 11 1 := by
  simp only [daysOfMonths, daysInMonth]
  cases isLeapYear year <;> decide

theorem isValid_monthOfDay {year rest : Nat} (hrest : rest < 365) :
    isValid ⟨year, (monthOfDay year 11 1 rest).1, (monthOfDay year 11 1 rest).2⟩ = true ↔
      minYear ≤ year ∧ year ≤ maxYear := by
  obtain ⟨hlow, hhigh, hfirst, hlast⟩ :=
    monthOfDay_spec year (Nat.lt_of_lt_of_le hrest (le_daysOfMonths year))
  simp [isValid, hlow, hhigh, hfirst, hlast]

theorem isValid_lastOfYear (year : Nat) :
    isValid ⟨year, 12, 31⟩ = true ↔ minYear ≤ year ∧ year ≤ maxYear := by
  simp [isValid, daysInMonth]

/-- The days before year 10000, counted from 0, in cycles of 400, 100 and 4 years. -/
theorem year_le_iff {cycles400 centuries cycles4 years rest : Nat} (hcenturies : centuries ≤ 3)
    (hcycles4 : cycles4 ≤ 24) (hyears : years ≤ 3) (hrest : rest < 365) :
    400 * cycles400 + 100 * centuries + 4 * cycles4 + years + 1 ≤ 9999 ↔
      146097 * cycles400 + 36524 * centuries + 1461 * cycles4 + 365 * years + rest < 3652059 := by
  -- the bound is reached in the last cycle of each length only
  by_cases h400 : cycles400 = 24
  · by_cases h100 : centuries = 3
    · by_cases h4 : cycles4 = 24 <;> omega
    · omega
  · omega

/-- **The days of the calendar are counted from 1 to the last.** -/
theorem isSome_ofDayCount? (count : Nat) :
    (ofDayCount? count).isSome = true ↔ 1 ≤ count ∧ count ≤ lastDayCount := by
  have hlast : lastDayCount = 3652059 := by decide
  unfold ofDayCount?
  split
  · next h => simp [h]
  · next h =>
    have hsome : ∀ d : Date, (if d.isValid then some d else none).isSome = true ↔
        d.isValid = true := fun d => by cases d.isValid <;> simp
    dsimp only
    rw [hsome]
    have hrest : (count - 1) % 146097 % 36524 % 1461 % 365 < 365 := Nat.mod_lt _ (by decide)
    split
    · next hclosing =>
      rw [isValid_lastOfYear, hlast, minYear, maxYear]
      simp only [Bool.or_eq_true, decide_eq_true_eq] at hclosing
      omega
    · next hclosing =>
      simp only [Bool.or_eq_true, decide_eq_true_eq] at hclosing
      have hyear := @year_le_iff ((count - 1) / 146097) ((count - 1) % 146097 / 36524)
        ((count - 1) % 146097 % 36524 / 1461) ((count - 1) % 146097 % 36524 % 1461 / 365) _
        (by omega) (by omega) (by omega) hrest
      rw [isValid_monthOfDay hrest, hlast, minYear, maxYear]
      omega

end Date

namespace DateTime

/-- An instant in the calendar: on its first day, on its last day, or between. -/
def IsInCalendar (instant : Int) : Prop :=
  (microsPerDay : Nat) ≤ instant ∧ instant < ((Date.lastDayCount + 1) * microsPerDay : Nat)

/-- **A `DateTime` is put into universal time exactly when its instant is in the calendar.** -/
theorem toUniversal?_eq_none_iff (t : DateTime) :
    t.toUniversal? = none ↔ ¬ IsInCalendar t.instant := by
  unfold toUniversal? ofMicros? IsInCalendar
  have hday : 0 < microsPerDay := by decide
  split
  · next h => simp; omega
  · next h =>
    dsimp only
    have hlast : t.instant.toNat / microsPerDay ≤ Date.lastDayCount ↔
        t.instant.toNat < (Date.lastDayCount + 1) * microsPerDay :=
      Nat.lt_succ_iff.symm.trans (Nat.div_lt_iff_lt_mul hday)
    rw [Option.map_eq_none_iff, ← Option.not_isSome_iff_eq_none, Date.isSome_ofDayCount?,
      Nat.le_div_iff_mul_le hday, Nat.one_mul, hlast]
    omega

end DateTime

end Verdict
