import Mathlib
import Scorecard.Timestamp

/-!
The calendar. A day number gives a date whose month is one of twelve and whose day is at most the
thirty-first, and the date gives the number back. So every date that comes from a day number is valid.
-/
namespace Scorecard.Date

/-- The year of the era and the day of the year, from March, for a day of the era. Within a century of the
era the years have their leap days at the same places, and the last day of the era stands alone. -/
theorem yearOfEra_bounds {day year : Int} (hday : 0 ≤ day ∧ day < 146097)
    (hyear : year = (day - day / 1460 + day / 36524 - day / 146096) / 365) :
    (0 ≤ year ∧ year < 400) ∧ 0 ≤ day - (365 * year + year / 4 - year / 100) ∧
      day - (365 * year + year / 4 - year / 100) ≤ 365 := by
  by_cases hlast : day = 146096
  · subst hlast
    omega
  have hera : day / 146096 = 0 := by omega
  have hcentury : day / 36524 = 0 ∨ day / 36524 = 1 ∨ day / 36524 = 2 ∨ day / 36524 = 3 := by omega
  rw [hera] at hyear
  rcases hcentury with h | h | h | h
  all_goals
    rw [h] at hyear
    have hyears : year / 100 = day / 36524 := by omega
    rw [hyears, h]
    omega

/-- A date counted from March: the era, the year in it and the day of the year tell the number of the day,
and the day of the year tells the month and the day of the month. -/
theorem exists_ofDayNumber (n : Int) :
    ∃ (era year : Int) (day : Nat), (0 ≤ year ∧ year < 400) ∧ day ≤ 365 ∧
      n = era * 146097 + (year * 365 + year / 4 - year / 100 + day) - 719468 ∧
      ofDayNumber n =
        if (5 * day + 2) / 153 < 10 then
          ⟨year + era * 400, (5 * day + 2) / 153 + 3, day - (153 * ((5 * day + 2) / 153) + 2) / 5 + 1⟩
        else ⟨year + era * 400 + 1, (5 * day + 2) / 153 - 9, day - (153 * ((5 * day + 2) / 153) + 2) / 5 + 1⟩ := by
  obtain ⟨day, hday⟩ : ∃ day, day = n + 719468 - (n + 719468) / 146097 * 146097 := ⟨_, rfl⟩
  obtain ⟨year, hyear⟩ : ∃ year, year = (day - day / 1460 + day / 36524 - day / 146096) / 365 := ⟨_, rfl⟩
  obtain ⟨hrange, hfirst, hlast⟩ := yearOfEra_bounds (by omega) hyear
  refine ⟨(n + 719468) / 146097, year, (day - (365 * year + year / 4 - year / 100)).toNat, hrange, by omega, by omega, ?_⟩
  subst hyear hday
  rfl

/-- A day number is the number of its date. -/
theorem dayNumber_ofDayNumber (n : Int) : (ofDayNumber n).dayNumber = n := by
  obtain ⟨era, year, day, hyear, hday, hn, hdate⟩ := exists_ofDayNumber n
  have hera : (year + era * 400) / 400 = era := by omega
  have hmonth : (5 * day + 2) / 153 ≤ 11 := by omega
  generalize hm : (5 * day + 2) / 153 = month at hdate hmonth
  rw [hdate]
  split
  · have hmarch : (month + 3 + 9) % 12 = month := by omega
    simp only [dayNumber, if_neg (show ¬month + 3 ≤ 2 by omega), hera, hmarch, Int.add_sub_cancel]
    omega
  · have hmarch : (month - 9 + 9) % 12 = month := by omega
    simp only [dayNumber, if_pos (show month - 9 ≤ 2 by omega), hera, hmarch, Int.add_sub_cancel]
    omega

theorem ofDayNumber_bounds (n : Int) :
    (1 ≤ (ofDayNumber n).month ∧ (ofDayNumber n).month ≤ 12) ∧ 1 ≤ (ofDayNumber n).day ∧ (ofDayNumber n).day ≤ 31 := by
  obtain ⟨era, year, day, -, hday, -, hdate⟩ := exists_ofDayNumber n
  rw [hdate]
  split
  · dsimp only
    omega
  · dsimp only
    omega

/-- Dates of day numbers are valid. -/
theorem valid_ofDayNumber (n : Int) : (ofDayNumber n).Valid := congrArg ofDayNumber (dayNumber_ofDayNumber n)

end Scorecard.Date
