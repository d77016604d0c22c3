import Mathlib

/-!
# The proleptic Gregorian calendar

Years and months have lengths, and a date is numbered by the days since the start of the year zero,
which are negative before it. The number of the next date is the next number, and dates are ordered as
their numbers are.
-/

namespace BinlogCdc.Core

def isLeapYear (year : Int) : Bool := year % 4 = 0 && (year % 100 ≠ 0 || year % 400 = 0)

def yearLength (year : Int) : Nat := if isLeapYear year then 366 else 365

/-- The days of a month; the first month is 1. -/
def monthLength (year : Int) (month : Nat) : Nat :=
  if month = 2 then if isLeapYear year then 29 else 28
  else if month ∈ [4, 6, 9, 11] then 30
  else 31

/-- The days from the start of the year zero to the start of a year. -/
def daysBeforeYear (year : Int) : Int :=
  365 * year + (year + 3) / 4 - (year + 99) / 100 + (year + 399) / 400

def daysBeforeMonth (year : Int) (month : Nat) : Nat :=
  ((List.range (month - 1)).map fun earlier => monthLength year (earlier + 1)).sum

/-- The number of a date. -/
def dayNumber (year : Int) (month day : Nat) : Int :=
  daysBeforeYear year + daysBeforeMonth year month + day - 1

/-- The calendar has the date. -/
structure IsDate (year : Int) (month day : Nat) : Prop where
  month_pos : 1 ≤ month
  month_le : month ≤ 12
  day_pos : 1 ≤ day
  day_le : day ≤ monthLength year month

/-- The order of dates. -/
def Earlier (date other : Int × Nat × Nat) : Prop :=
  date.1 < other.1 ∨ date.1 = other.1 ∧
    (date.2.1 < other.2.1 ∨ date.2.1 = other.2.1 ∧ date.2.2 < other.2.2)

/-! ## Years -/

theorem daysBeforeYear_zero : daysBeforeYear 0 = 0 := rfl

/-- A year is as long as the calendar says. -/
theorem daysBeforeYear_succ (year : Int) :
    daysBeforeYear (year + 1) = daysBeforeYear year + yearLength year := by
  have hfour : (year + 4) / 4 = (year + 3) / 4 + if year % 4 = 0 then 1 else 0 := by
    split_ifs <;> omega
  have hhundred : (year + 100) / 100 = (year + 99) / 100 + if year % 100 = 0 then 1 else 0 := by
    split_ifs <;> omega
  have hcycle : (year + 400) / 400 = (year + 399) / 400 + if year % 400 = 0 then 1 else 0 := by
    split_ifs <;> omega
  unfold daysBeforeYear yearLength isLeapYear
  rw [show year + 1 + 3 = year + 4 by omega, show year + 1 + 99 = year + 100 by omega,
    show year + 1 + 399 = year + 400 by omega, hfour, hhundred, hcycle]
  simp only [Bool.and_eq_true, Bool.or_eq_true, decide_eq_true_eq]
  split_ifs <;> omega

theorem yearLength_pos (year : Int) : 365 ≤ yearLength year := by
  unfold yearLength
  split_ifs <;> omega

theorem daysBeforeYear_add (year : Int) (count : Nat) :
    daysBeforeYear year + 365 * count ≤ daysBeforeYear (year + count) := by
  induction count with
  | zero => simp
  | succ count ih =>
    have hnext := daysBeforeYear_succ (year + count)
    have hlength := yearLength_pos (year + count)
    rw [show year + ((count + 1 : Nat) : Int) = year + count + 1 by push_cast; omega]
    omega

/-! ## Months -/

/-- The days before a month of the same year, counted from March for the months after February. -/
theorem daysBeforeMonth_of_two_lt (year : Int) {phase : Nat} (h : phase ≤ 10) :
    daysBeforeMonth year (phase + 3) =
      (153 * phase + 2) / 5 + 59 + (yearLength year - 365) := by
  have hfebruary : monthLength year 2 = yearLength year - 365 + 28 := by
    unfold monthLength yearLength
    cases isLeapYear year <;> rfl
  have hsum : ∀ phase, daysBeforeMonth year (phase + 3) =
      31 + (monthLength year 2 + ((List.range phase).map fun earlier =>
        monthLength 1 (earlier + 3)).sum) := by
    intro phase
    have hrange : List.range (phase + 2) = 0 :: 1 :: (List.range phase).map (· + 2) := by
      rw [List.range_succ_eq_map, List.range_succ_eq_map]
      simp
    unfold daysBeforeMonth
    rw [show phase + 3 - 1 = phase + 2 from rfl, hrange, List.map_cons, List.map_cons, List.sum_cons,
      List.sum_cons, List.map_map]
    congr 3
  rw [hsum, hfebruary]
  have hdays : ∀ phase ≤ 10, ((List.range phase).map fun earlier =>
      monthLength 1 (earlier + 3)).sum = (153 * phase + 2) / 5 := by
    decide
  rw [hdays phase h]
  omega

theorem daysBeforeMonth_one (year : Int) : daysBeforeMonth year 1 = 0 := rfl

theorem daysBeforeMonth_two (year : Int) : daysBeforeMonth year 2 = 31 := rfl

theorem daysBeforeMonth_succ (year : Int) {month : Nat} (h : 1 ≤ month) :
    daysBeforeMonth year (month + 1) = daysBeforeMonth year month + monthLength year month := by
  cases month with
  | zero => cases h
  | succ month => simp [daysBeforeMonth, List.range_succ]

/-- The twelve months make the year. -/
theorem daysBeforeMonth_thirteen (year : Int) : daysBeforeMonth year 13 = yearLength year := by
  have hlength := yearLength_pos year
  rw [show 13 = 10 + 3 from rfl, daysBeforeMonth_of_two_lt year (Nat.le_refl 10)]
  omega

theorem daysBeforeMonth_mono (year : Int) {month later : Nat} (hpos : 1 ≤ month)
    (h : month ≤ later) : daysBeforeMonth year month ≤ daysBeforeMonth year later := by
  induction later, h using Nat.le_induction with
  | base => exact Nat.le_refl _
  | succ later hle ih =>
    rw [daysBeforeMonth_succ year (le_trans hpos hle)]
    omega

/-! ## Dates -/

/-- A date lies before the end of its month. -/
theorem IsDate.before_next_month {year : Int} {month day : Nat} (h : IsDate year month day) :
    daysBeforeMonth year month + day ≤ daysBeforeMonth year (month + 1) := by
  rw [daysBeforeMonth_succ year h.month_pos]
  exact Nat.add_le_add_left h.day_le _

/-- A date lies in its year. -/
theorem IsDate.before_next_year {year : Int} {month day : Nat} (h : IsDate year month day) :
    dayNumber year month day < daysBeforeYear (year + 1) := by
  have hmonth := h.before_next_month
  have hmono := daysBeforeMonth_mono year (Nat.le_add_left 1 month) (Nat.succ_le_succ h.month_le)
  rw [daysBeforeMonth_thirteen] at hmono
  have hnext := daysBeforeYear_succ year
  unfold dayNumber
  omega

/-- The number of an earlier date is smaller. -/
theorem dayNumber_lt {year year' : Int} {month month' day day' : Nat} (h : IsDate year month day)
    (h' : IsDate year' month' day') (hearlier : Earlier (year, month, day) (year', month', day')) :
    dayNumber year month day < dayNumber year' month' day' := by
  simp only [Earlier] at hearlier
  rcases hearlier with hyear | ⟨rfl, hmonth | ⟨rfl, hday⟩⟩
  · obtain ⟨count, hcount⟩ := Int.le.dest (show year + 1 ≤ year' from hyear)
    have hbefore := h.before_next_year
    have hyears := daysBeforeYear_add (year + 1) count
    have hday := h'.day_pos
    rw [hcount] at hyears
    unfold dayNumber at hbefore ⊢
    omega
  · have hbefore := h.before_next_month
    have hmono := daysBeforeMonth_mono year (Nat.le_add_left 1 month) (show month + 1 ≤ month' from hmonth)
    have hday := h'.day_pos
    unfold dayNumber
    omega
  · unfold dayNumber
    omega

/-- Dates are ordered as their numbers are. -/
theorem earlier_iff {year year' : Int} {month month' day day' : Nat} (h : IsDate year month day)
    (h' : IsDate year' month' day') :
    Earlier (year, month, day) (year', month', day') ↔
      dayNumber year month day < dayNumber year' month' day' := by
  refine ⟨dayNumber_lt h h', fun hlt => ?_⟩
  by_contra hnot
  by_cases hsame : (year, month, day) = (year', month', day')
  · cases hsame
    exact absurd hlt (Int.lt_irrefl _)
  · have hlater : Earlier (year', month', day') (year, month, day) := by
      unfold Earlier at hnot ⊢
      simp only [Prod.mk.injEq, not_or, not_and] at hnot hsame ⊢
      omega
    have hgt := dayNumber_lt h' h hlater
    omega

end BinlogCdc.Core
