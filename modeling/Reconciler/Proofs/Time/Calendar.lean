import Mathlib.Tactic.IntervalCases
import Reconciler.Time.Calendar

/-! Days and dates. Every day has a date that the calendar knows, and comes back from it. Years are
counted from March, so that a leap day is the last of its year. -/
namespace Reconciler

/-- A day of an era of 400 years, by its century, the four years in it, the year and the day in
these. Only the last of four years has a leap day, and of the last four of a century only those of
the last century. -/
structure DayOfEra where
  century : Nat
  quad : Nat
  year : Nat
  day : Nat
  century_le : century ≤ 3
  quad_le : quad ≤ 24
  year_le : year ≤ 3
  day_le : day ≤ 365
  leap : day = 365 → year = 3 ∧ (quad = 24 → century = 3)

namespace DayOfEra

def number (d : DayOfEra) : Nat := 36524 * d.century + 1461 * d.quad + 365 * d.year + d.day

def yearOfEra (d : DayOfEra) : Nat := 100 * d.century + 4 * d.quad + d.year

/-- Each number below 146097 is that of a day of an era. -/
theorem exists_number_eq {n : Nat} (h : n < 146097) : ∃ d : DayOfEra, d.number = n := by
  -- the last day of an era begins no fifth century, and the last of four years no fifth year
  obtain ⟨c, r, hc, hn, hshort, hlong⟩ : ∃ c r, c ≤ 3 ∧ n = 36524 * c + r ∧
      (c ≠ 3 → r ≤ 36523) ∧ r ≤ 36524 :=
    ⟨min (n / 36524) 3, n - 36524 * min (n / 36524) 3, by omega, by omega, by omega, by omega⟩
  obtain ⟨q, t, hq, hr, ht, hend⟩ : ∃ q t, q ≤ 24 ∧ r = 1461 * q + t ∧ t ≤ 1460 ∧
      (t = 1460 → q = 24 → c = 3) :=
    ⟨r / 1461, r % 1461, by omega, by omega, by omega, by omega⟩
  obtain ⟨u, v, hu, hv, hsplit, hleap⟩ : ∃ u v, u ≤ 3 ∧ v ≤ 365 ∧ t = 365 * u + v ∧
      (v = 365 → u = 3) :=
    ⟨min (t / 365) 3, t - 365 * min (t / 365) 3, by omega, by omega, by omega, by omega⟩
  refine ⟨⟨c, q, u, v, hc, hq, hu, hv, fun hlast => ⟨hleap hlast, hend ?_⟩⟩, ?_⟩
  · have hyear := hleap hlast
    omega
  · simp only [number]
    omega

variable (d : DayOfEra)

theorem number_lt : d.number < 146097 := by
  obtain ⟨c, q, u, v, hc, hq, hu, hv, hleap⟩ := d
  simp only [number]
  by_cases hlast : v = 365
  · have h := hleap hlast
    omega
  · omega

theorem yearOfEra_eq : (d.number - d.number / 1460 + d.number / 36524 - d.number / 146096) / 365 =
    d.yearOfEra := by
  obtain ⟨c, q, u, v, hc, hq, hu, hv, hleap⟩ := d
  simp only [number, yearOfEra]
  by_cases hlast : q = 24 ∧ v = 365
  · obtain ⟨rfl, rfl⟩ := hlast
    obtain ⟨rfl, hcentury⟩ := hleap rfl
    rw [hcentury rfl]
  · have hcentury : (36524 * c + 1461 * q + 365 * u + v) / 36524 = c := by omega
    have hera : (36524 * c + 1461 * q + 365 * u + v) / 146096 = 0 := by omega
    rw [hcentury, hera]
    omega

theorem yearOfEra_lt : d.yearOfEra < 400 := by
  obtain ⟨c, q, u, v, hc, hq, hu, hv, hleap⟩ := d
  simp only [yearOfEra]
  omega

/-- The years before it in the era, and the day in its year. -/
theorem number_eq : d.number =
    365 * d.yearOfEra + d.yearOfEra / 4 - d.yearOfEra / 100 + d.day := by
  obtain ⟨c, q, u, v, hc, hq, hu, hv, hleap⟩ := d
  simp only [number, yearOfEra]
  omega

def month (d : DayOfEra) : Nat := (5 * d.day + 2) / 153

theorem month_le : d.month ≤ 11 := by
  have h := d.day_le
  simp only [month]
  omega

end DayOfEra

/-- The day of a year from March on with which a month begins. -/
def monthStart (month : Nat) : Nat := (153 * month + 2) / 5

/-- All months but the last of such a year have lengths of their own. -/
theorem daysInMonth_eq (year : Int) {month : Nat} (h : month < 11) :
    daysInMonth year (if month < 10 then month + 3 else month - 9) =
      monthStart (month + 1) - monthStart month := by
  interval_cases month <;> rfl

structure IsDate (year : Int) (month day : Nat) : Prop where
  month_pos : 1 ≤ month
  month_le : month ≤ 12
  day_pos : 1 ≤ day
  day_le : day ≤ daysInMonth year month

theorem IsDate.day_le_thirtyOne {year : Int} {month day : Nat} (h : IsDate year month day) :
    day ≤ 31 := by
  refine h.day_le.trans ?_
  unfold daysInMonth
  split
  · split <;> decide
  · split <;> decide

namespace DayOfEra
variable (d : DayOfEra) (era : Int)

theorem monthStart_le : monthStart d.month ≤ d.day := by
  simp only [month, monthStart]
  omega

theorem lt_monthStart : d.day < monthStart (d.month + 1) := by
  simp only [month, monthStart]
  omega

def calendarMonth : Nat := if d.month < 10 then d.month + 3 else d.month - 9

def calendarYear : Int :=
  if d.calendarMonth ≤ 2 then d.yearOfEra + era * 400 + 1 else d.yearOfEra + era * 400

def dayOfMonth : Nat := d.day - monthStart d.month + 1

theorem calendarMonth_bounds : 1 ≤ d.calendarMonth ∧ d.calendarMonth ≤ 12 := by
  have h := d.month_le
  simp only [calendarMonth]
  split <;> omega

/-- February ends with the year, and has a last day more in leap years alone. -/
theorem day_le_of_february (h : d.month = 11) :
    d.dayOfMonth ≤ daysInMonth (d.calendarYear era) d.calendarMonth := by
  have hmonth : d.calendarMonth = 2 := by rw [calendarMonth, h]; rfl
  have hyear : d.calendarYear era = d.yearOfEra + era * 400 + 1 := by
    rw [calendarYear, hmonth]
    rfl
  have hstart : monthStart 11 = 337 := rfl
  rw [hmonth, hyear, daysInMonth, if_pos rfl, dayOfMonth, h, hstart]
  by_cases hlast : d.day = 365
  · obtain ⟨hlong, hquad⟩ := d.leap hlast
    have hcentury := d.century_le
    have hquad_le := d.quad_le
    have hleap : isLeapYear (d.yearOfEra + era * 400 + 1) = true := by
      simp only [isLeapYear, yearOfEra, hlong, Bool.and_eq_true, Bool.or_eq_true, beq_iff_eq,
        bne_iff_ne]
      omega
    rw [if_pos hleap]
    omega
  · have hday := d.day_le
    split <;> omega

theorem isDate : IsDate (d.calendarYear era) d.calendarMonth d.dayOfMonth where
  month_pos := d.calendarMonth_bounds.1
  month_le := d.calendarMonth_bounds.2
  day_pos := Nat.succ_pos _
  day_le := by
    rcases Nat.lt_or_eq_of_le d.month_le with h | h
    · have hlow := d.monthStart_le
      have hhigh := d.lt_monthStart
      rw [calendarMonth, daysInMonth_eq _ h, dayOfMonth]
      omega
    · exact d.day_le_of_february era h

/-- A day has the date of its place in its era. -/
theorem dateOfDay_eq {n : Int} (h : n + 719468 = era * 146097 + d.number) :
    dateOfDay n = (d.calendarYear era, d.calendarMonth, d.dayOfMonth) := by
  have hlt := d.number_lt
  have hera : (n + 719468) / 146097 = era := by omega
  have hnumber : (n + 719468 - era * 146097).toNat = d.number := by omega
  have hday : d.number - (365 * d.yearOfEra + d.yearOfEra / 4 - d.yearOfEra / 100) = d.day := by
    rw [d.number_eq]
    omega
  simp only [dateOfDay, hera, hnumber, d.yearOfEra_eq, hday]
  rfl

/-- A date leads back to its day. -/
theorem dayOfDate_eq : dayOfDate (d.calendarYear era) d.calendarMonth d.dayOfMonth =
    era * 146097 + d.number - 719468 := by
  have hmonth := d.month_le
  have hyear : (if d.calendarMonth ≤ 2 then d.calendarYear era - 1 else d.calendarYear era) =
      d.yearOfEra + era * 400 := by
    rw [calendarYear]
    split <;> omega
  have hera : ((d.yearOfEra : Int) + era * 400) / 400 = era := by
    have h := d.yearOfEra_lt
    omega
  have hmarch : (d.calendarMonth + 9) % 12 = d.month := by
    rw [calendarMonth]
    split <;> omega
  have hday : (153 * (d.month : Int) + 2) / 5 + d.dayOfMonth - 1 = d.day := by
    have h := d.monthStart_le
    rw [monthStart] at h
    rw [dayOfMonth, monthStart]
    omega
  have hnumber := d.number_eq
  simp only [dayOfDate, hyear, hera, hmarch, hday]
  omega

end DayOfEra

theorem exists_dayOfEra (n : Int) :
    ∃ (era : Int) (d : DayOfEra), n + 719468 = era * 146097 + d.number := by
  obtain ⟨d, hd⟩ := DayOfEra.exists_number_eq (n := ((n + 719468) % 146097).toNat) (by omega)
  exact ⟨(n + 719468) / 146097, d, by omega⟩

/-- Every day has a date. -/
theorem isDate_dateOfDay (n : Int) :
    IsDate (dateOfDay n).1 (dateOfDay n).2.1 (dateOfDay n).2.2 := by
  obtain ⟨era, d, h⟩ := exists_dayOfEra n
  rw [d.dateOfDay_eq era h]
  exact d.isDate era

/-- A day comes back from its date. -/
theorem dayOfDate_dateOfDay (n : Int) :
    dayOfDate (dateOfDay n).1 (dateOfDay n).2.1 (dateOfDay n).2.2 = n := by
  obtain ⟨era, d, h⟩ := exists_dayOfEra n
  rw [d.dateOfDay_eq era h]
  exact (d.dayOfDate_eq era).trans (by omega)

end Reconciler
