import JobPipeline.Time.Calendar
import Mathlib

/-!
# Days and their dates

Every day has a date (`valid_civil`), and it is the date of no other day (`daysFrom_civil`). An era
has four centuries, a century 25 times four years, and whatever days are left over belong to the
last year. `Cycles` splits a day of an era accordingly; once that is done, the divisions that find
the year come out even (`Cycles.year_eq`).
-/

namespace JobPipeline.Calendar

theorem daysInMonth_le (year : Int) (month : Nat) : daysInMonth year month ≤ 31 := by
  unfold daysInMonth
  split_ifs <;> decide

/-- A day of an era, by its century, its four years within that, its year within these, and its day
within that. Only a leap year has a day 365. -/
structure Cycles (dayOfEra century four year day : Int) : Prop where
  sum : dayOfEra = 36524 * century + 1461 * four + 365 * year + day
  centuries : 0 ≤ century ∧ century ≤ 3
  fours : 0 ≤ four ∧ four ≤ 24
  years : 0 ≤ year ∧ year ≤ 3
  days : 0 ≤ day ∧ day ≤ 365
  leap : day = 365 → year = 3 ∧ (four = 24 → century = 3)

theorem exists_cycles {dayOfEra : Int} (low : 0 ≤ dayOfEra) (high : dayOfEra < 146097) :
    ∃ century four year day, Cycles dayOfEra century four year day := by
  obtain ⟨century, hcentury⟩ : ∃ c, c = min (dayOfEra / 36524) 3 := ⟨_, rfl⟩
  obtain ⟨four, hfour⟩ : ∃ k, k = (dayOfEra - 36524 * century) / 1461 := ⟨_, rfl⟩
  obtain ⟨year, hyear⟩ : ∃ j, j = min ((dayOfEra - 36524 * century - 1461 * four) / 365) 3 :=
    ⟨_, rfl⟩
  refine ⟨century, four, year, dayOfEra - 36524 * century - 1461 * four - 365 * year, ?_⟩
  constructor <;> omega

/-- The year of the era, as it is found by division. -/
theorem Cycles.year_eq {dayOfEra century four year day : Int}
    (h : Cycles dayOfEra century four year day) :
    (dayOfEra - dayOfEra / 1460 + dayOfEra / 36524 - dayOfEra / 146096) / 365 =
      100 * century + 4 * four + year := by
  obtain ⟨sum, hcentury, hfour, hyear, hday, leap⟩ := h
  have centuries : dayOfEra / 36524 - dayOfEra / 146096 = century := by
    rcases lt_or_eq_of_le (show dayOfEra ≤ 146096 by omega) with before | last
    · have none : dayOfEra / 146096 = 0 := by omega
      have below : dayOfEra - 36524 * century < 36524 := by omega
      omega
    · omega
  have fours : dayOfEra / 1460 = 25 * century + four ∨
      (dayOfEra / 1460 = 25 * century + four + 1 ∧ 3 ≤ year) := by omega
  omega

/-- The days before a year of an era. -/
theorem Cycles.day_eq {dayOfEra century four year day : Int}
    (h : Cycles dayOfEra century four year day) {yearOfEra : Int}
    (hy : yearOfEra = 100 * century + 4 * four + year) :
    dayOfEra - (365 * yearOfEra + yearOfEra / 4 - yearOfEra / 100) = day := by
  obtain ⟨sum, hcentury, hfour, hyear, hday, leap⟩ := h
  omega

/-- The date of a day of a year that begins in March. -/
def ofMarchYear (year dayOfYear : Int) : Date :=
  let monthFromMarch := (5 * dayOfYear + 2) / 153
  let day := dayOfYear - (153 * monthFromMarch + 2) / 5 + 1
  let month := if monthFromMarch < 10 then monthFromMarch + 3 else monthFromMarch - 9
  ⟨year + (if month ≤ 2 then 1 else 0), month.toNat, day.toNat⟩

theorem exists_civil (days : Int) :
    ∃ era century four year day : Int, ∃ dayOfEra, Cycles dayOfEra century four year day ∧
      days = era * 146097 + dayOfEra - 719468 ∧
      civil days = ofMarchYear (100 * century + 4 * four + year + era * 400) day := by
  obtain ⟨dayOfEra, hday⟩ : ∃ d, d = days + 719468 - (days + 719468) / 146097 * 146097 := ⟨_, rfl⟩
  obtain ⟨century, four, year, day, cycles⟩ :=
    exists_cycles (show 0 ≤ dayOfEra by omega) (show dayOfEra < 146097 by omega)
  refine ⟨(days + 719468) / 146097, century, four, year, day, dayOfEra, cycles, by omega, ?_⟩
  have hyear := cycles.year_eq
  have hdays := cycles.day_eq rfl
  rw [← hyear, hday] at hdays
  rw [← hyear, ← hdays, hday]
  rfl

theorem valid_ofMarchYear {year dayOfYear : Int} (range : 0 ≤ dayOfYear ∧ dayOfYear ≤ 365)
    (leap : dayOfYear = 365 → isLeap (year + 1) = true) :
    (ofMarchYear year dayOfYear).valid = true := by
  obtain ⟨month, hmonth⟩ : ∃ m, m = (5 * dayOfYear + 2) / 153 := ⟨_, rfl⟩
  have bounds : 0 ≤ month ∧ month ≤ 11 := by omega
  simp only [ofMarchYear, ← hmonth, Date.valid, daysInMonth, Bool.and_eq_true, decide_eq_true_eq]
  obtain ⟨low, high⟩ := bounds
  rcases eq_or_ne month 11 with rfl | other
  · -- February comes last, and has one day more in a leap year.
    by_cases long : isLeap (year + 1) = true
    · simp [long]
      omega
    · have := mt leap long
      simp [long]
      omega
  · have before : month ≤ 10 := by omega
    clear other high
    interval_cases month <;> (simp; omega)

theorem daysFrom_ofMarchYear {era yearOfEra dayOfYear : Int}
    (year : 0 ≤ yearOfEra ∧ yearOfEra ≤ 399) (day : 0 ≤ dayOfYear ∧ dayOfYear ≤ 365) :
    daysFrom (ofMarchYear (yearOfEra + era * 400) dayOfYear) =
      era * 146097 + (365 * yearOfEra + yearOfEra / 4 - yearOfEra / 100 + dayOfYear) - 719468 := by
  obtain ⟨month, hmonth⟩ : ∃ m, m = (5 * dayOfYear + 2) / 153 := ⟨_, rfl⟩
  obtain ⟨low, high⟩ : 0 ≤ month ∧ month ≤ 11 := by omega
  simp only [ofMarchYear, ← hmonth, daysFrom]
  interval_cases month <;> simp <;> omega

/-- **The date of a day is a date.** -/
theorem valid_civil (days : Int) : (civil days).valid = true := by
  obtain ⟨era, century, four, year, day, dayOfEra, cycles, -, hcivil⟩ := exists_civil days
  rw [hcivil]
  refine valid_ofMarchYear cycles.days fun last => ?_
  obtain ⟨third, whole⟩ := cycles.leap last
  have := cycles.centuries
  have := cycles.fours
  simp only [isLeap, Bool.and_eq_true, Bool.or_eq_true, beq_iff_eq, bne_iff_ne]
  omega

/-- **The date of a day is the date of that day.** -/
theorem daysFrom_civil (days : Int) : daysFrom (civil days) = days := by
  obtain ⟨era, century, four, year, day, dayOfEra, cycles, hdays, hcivil⟩ := exists_civil days
  have := cycles.centuries
  have := cycles.fours
  have := cycles.years
  have before := cycles.day_eq rfl
  rw [hcivil, daysFrom_ofMarchYear (by omega) cycles.days]
  omega

end JobPipeline.Calendar
