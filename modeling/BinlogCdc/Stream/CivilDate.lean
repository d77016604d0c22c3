import BinlogCdc.Core.Calendar
import BinlogCdc.Stream.CellValue

/-!
# The date of a day

Years are counted from March, so that the leap day is the last day of a year. A cycle of 400 such
years consists of centuries, cycles of four years, years and days, and the calculation of the stream
finds these parts. The date it makes of them has the number of the day.
-/

namespace BinlogCdc

/-! ## The parts of a cycle of 400 years -/

/-- A day of a cycle: century, cycle of four years, year and day of the year. -/
structure CycleDay where
  century : Nat
  fourYears : Nat
  year : Nat
  day : Nat
  century_le : century ≤ 3
  fourYears_le : fourYears ≤ 24
  year_le : year ≤ 3
  day_le : day ≤ 365
  /-- Only a last year of four has a leap day, and the last year of a century only if it is the last
  of the cycle. -/
  leapDay : day = 365 → year = 3 ∧ (fourYears = 24 → century = 3)

namespace CycleDay

variable (d : CycleDay)

def yearOfCycle : Nat := 100 * d.century + 4 * d.fourYears + d.year

def number : Nat := 36524 * d.century + 1461 * d.fourYears + 365 * d.year + d.day

theorem exists_number {n : Nat} (h : n ≤ 146096) : ∃ d : CycleDay, n = d.number := by
  obtain ⟨q, r, hq, hr, hn⟩ : ∃ q r, q ≤ 3 ∧ (r ≤ 36523 ∨ q = 3 ∧ r ≤ 36524) ∧ n = 36524 * q + r :=
    ⟨min (n / 36524) 3, n - 36524 * min (n / 36524) 3, by omega, by omega, by omega⟩
  obtain ⟨k, s, hk, hs, hr'⟩ : ∃ k s, k ≤ 24 ∧ s ≤ 1460 ∧ r = 1461 * k + s :=
    ⟨r / 1461, r % 1461, by omega, by omega, by omega⟩
  obtain ⟨j, t, hj, ht, hs'⟩ : ∃ j t, j ≤ 3 ∧ (t ≤ 364 ∨ j = 3 ∧ t ≤ 365) ∧ s = 365 * j + t :=
    ⟨min (s / 365) 3, s - 365 * min (s / 365) 3, by omega, by omega, by omega⟩
  refine ⟨⟨q, k, j, t, hq, hk, hj, by omega, by omega⟩, ?_⟩
  unfold number
  dsimp only
  omega

/-- The quotients of the calculation find the year. -/
theorem yearOfCycle_eq :
    ((d.number : Int) - d.number / 1460 + d.number / 36524 - d.number / 146096) / 365 =
      d.yearOfCycle := by
  obtain ⟨q, k, j, t, hq, hk, hj, ht, hlast⟩ := d
  simp only [number, yearOfCycle]
  set n := 36524 * q + 1461 * k + 365 * j + t with hn
  have hcentury : n / 36524 = q ∨ n / 36524 = q + 1 ∧ q = 3 ∧ k = 24 ∧ j = 3 ∧ t = 365 := by omega
  have hcycle : n / 146096 = 0 ∨ n / 146096 = 1 ∧ q = 3 ∧ k = 24 ∧ j = 3 ∧ t = 365 := by omega
  have hfour : n / 1460 = 25 * q + k + (24 * q + k + 365 * j + t) / 1460 := by omega
  have hover : (24 * q + k + 365 * j + t) / 1460 ≤ 1 := by omega
  have hover' : (24 * q + k + 365 * j + t) / 1460 = 1 → 1460 ≤ 24 * q + k + 365 * j + t := by omega
  omega

theorem yearOfCycle_le : d.yearOfCycle ≤ 399 := by
  have hcentury := d.century_le
  have hfour := d.fourYears_le
  have hyear := d.year_le
  unfold yearOfCycle
  omega

/-- What the calculation subtracts for the years of the cycle before. -/
theorem number_eq :
    d.number = 365 * d.yearOfCycle + d.yearOfCycle / 4 - d.yearOfCycle / 100 + d.day := by
  obtain ⟨q, k, j, t, hq, hk, hj, ht, hlast⟩ := d
  simp only [number, yearOfCycle]
  have hfour : (100 * q + 4 * k + j) / 4 = 25 * q + k := by omega
  have hcentury : (100 * q + 4 * k + j) / 100 = q := by omega
  omega

/-- The days before the January after a March year, in the cycles and the day of the year. -/
theorem daysBeforeYear_cycle (era : Int) :
    Core.daysBeforeYear (d.yearOfCycle + era * 400 + 1) + d.day =
      146097 * era + d.number + 366 := by
  have hnumber := d.number_eq
  have hfours : ((d.yearOfCycle : Int) + era * 400 + 1 + 3) / 4 =
      (d.yearOfCycle / 4 : Nat) + 100 * era + 1 := by omega
  have hcenturies : ((d.yearOfCycle : Int) + era * 400 + 1 + 99) / 100 =
      (d.yearOfCycle / 100 : Nat) + 4 * era + 1 := by omega
  have hcycles : ((d.yearOfCycle : Int) + era * 400 + 1 + 399) / 400 = era + 1 := by
    have hyear := d.yearOfCycle_le
    omega
  have hle : d.yearOfCycle / 100 ≤ d.yearOfCycle := Nat.div_le_self _ _
  unfold Core.daysBeforeYear
  rw [hfours, hcenturies, hcycles]
  omega

/-- The last day of a March year with 366 days is a leap day. -/
theorem isLeapYear_of_day (era : Int) (h : d.day = 365) :
    Core.isLeapYear (d.yearOfCycle + era * 400 + 1) = true := by
  obtain ⟨hthird, hcentury⟩ := d.leapDay h
  have hbounds := d.century_le
  have hbounds' := d.fourYears_le
  unfold yearOfCycle
  push_cast
  simp only [Core.isLeapYear, Bool.and_eq_true, Bool.or_eq_true, decide_eq_true_eq]
  omega

end CycleDay

/-! ## The date -/

/-- The month and the day of a day of a year counted from March. -/
theorem marchDay_bounds {day phase : Nat} (hday : day ≤ 365) (hphase : phase = (5 * day + 2) / 153) :
    phase ≤ 11 ∧ (153 * phase + 2) / 5 ≤ day ∧ day ≤ (153 * phase + 2) / 5 + 30 ∧
      (phase ∈ [1, 3, 6, 8] → day ≤ (153 * phase + 2) / 5 + 29) ∧
      (phase = 11 → day ≤ (153 * phase + 2) / 5 + 28) := by
  have hle : phase ≤ 11 := by omega
  refine ⟨hle, ?_⟩
  simp only [List.mem_cons, List.not_mem_nil, or_false]
  interval_cases phase <;> omega

/-- The date of a March year, its month counted from March and its day. -/
def civilDate (marchYear : Int) (phase day : Nat) : DateParts where
  year := if phase < 10 then marchYear else marchYear + 1
  month := UInt8.ofNat (if phase < 10 then phase + 3 else phase - 9)
  day := UInt8.ofNat day

/-- The calculation finds the parts of the day. -/
theorem civilFromDays_eq {days era : Int} {phase : Nat} {d : CycleDay}
    (hdays : days + 719468 = 146097 * era + d.number) (hnumber : d.number ≤ 146096)
    (hphase : phase = (5 * d.day + 2) / 153) :
    civilFromDays days =
      civilDate (d.yearOfCycle + era * 400) phase (d.day - (153 * phase + 2) / 5 + 1) := by
  have hera : (days + 719468) / 146097 = era := by omega
  have hdayOfEra : days + 719468 - era * 146097 = d.number := by omega
  have hyear := d.yearOfCycle_eq
  have hparts := d.number_eq
  have hdayOfYear : (d.number : Int) - (365 * d.yearOfCycle + d.yearOfCycle / 4 -
      d.yearOfCycle / 100) = d.day := by omega
  have hphaseInt : (5 * (d.day : Int) + 2) / 153 = phase := by omega
  have hday : ((d.day : Int) - (153 * phase + 2) / 5 + 1).toNat =
      d.day - (153 * phase + 2) / 5 + 1 := by omega
  simp only [civilFromDays, civilDate, hera, hdayOfEra, hyear, hdayOfYear, hphaseInt, hday]
  by_cases hlate : phase < 10
  · have hlateInt : (phase : Int) < 10 := by omega
    have hmonth : ¬((phase : Int) + 3 ≤ 2) := by omega
    have hmonthNat : ((phase : Int) + 3).toNat = phase + 3 := by omega
    simp only [if_pos hlateInt, if_neg hmonth, if_pos hlate, hmonthNat, DateParts.mk.injEq,
      and_self, and_true]
    omega
  · have hlateInt : ¬((phase : Int) < 10) := by omega
    have hmonth : (phase : Int) + -9 ≤ 2 := by omega
    have hmonthNat : ((phase : Int) + -9).toNat = phase - 9 := by omega
    simp only [if_neg hlateInt, if_pos hmonth, if_neg hlate, hmonthNat]

/-- A date made of a March year has the number of its day. -/
theorem civilDate_spec (d : CycleDay) (era : Int) {phase : Nat}
    (hphase : phase = (5 * d.day + 2) / 153) {date : DateParts}
    (hdate : date = civilDate (d.yearOfCycle + era * 400) phase
      (d.day - (153 * phase + 2) / 5 + 1)) :
    Core.IsDate date.year date.month.toNat date.day.toNat ∧
      Core.dayNumber date.year date.month.toNat date.day.toNat = 146097 * era + d.number + 60 := by
  obtain ⟨hphaseLe, hstart, hend, hshort, hfebruary⟩ := marchDay_bounds d.day_le hphase
  have hday : (UInt8.ofNat (d.day - (153 * phase + 2) / 5 + 1)).toNat =
      d.day - (153 * phase + 2) / 5 + 1 := by
    rw [UInt8.toNat_ofNat']
    omega
  have hmonth : (UInt8.ofNat (if phase < 10 then phase + 3 else phase - 9)).toNat =
      if phase < 10 then phase + 3 else phase - 9 := by
    rw [UInt8.toNat_ofNat']
    split_ifs <;> omega
  have hbefore := d.daysBeforeYear_cycle era
  have hleap := d.isLeapYear_of_day era
  have hlast := d.day_le
  subst hdate
  simp only [civilDate, hday, hmonth]
  generalize (d.yearOfCycle : Int) + era * 400 = y at hbefore hleap
  by_cases hlate : phase < 10
  · simp only [if_pos hlate]
    refine ⟨⟨by omega, by omega, by omega, ?_⟩, ?_⟩
    · have hlength : Core.monthLength y (phase + 3) = if phase ∈ [1, 3, 6, 8] then 30 else 31 := by
        unfold Core.monthLength
        rw [if_neg (by omega)]
        simp
      rw [hlength]
      split_ifs with hmonthShort
      · have := hshort hmonthShort
        omega
      · omega
    · have hmonths := Core.daysBeforeMonth_of_two_lt y (show phase ≤ 10 by omega)
      have hnext := Core.daysBeforeYear_succ y
      have hlength : 365 ≤ Core.yearLength y := by
        unfold Core.yearLength
        split_ifs <;> omega
      unfold Core.dayNumber
      omega
  · simp only [if_neg hlate]
    refine ⟨⟨by omega, by omega, by omega, ?_⟩, ?_⟩
    · obtain rfl | rfl : phase = 10 ∨ phase = 11 := by omega
      · have hlength : Core.monthLength (y + 1) (10 - 9) = 31 := rfl
        rw [hlength]
        omega
      · have hlength : Core.monthLength (y + 1) (11 - 9) =
            if Core.isLeapYear (y + 1) then 29 else 28 := rfl
        rw [hlength]
        have hshortest := hfebruary rfl
        split_ifs with hleapYear
        · omega
        · have hnot : d.day ≠ 365 := fun h => hleapYear (hleap h)
          omega
    · unfold Core.dayNumber
      obtain rfl | rfl : phase = 10 ∨ phase = 11 := by omega
      · rw [show 10 - 9 = 1 from rfl, Core.daysBeforeMonth_one]
        omega
      · rw [show 11 - 9 = 2 from rfl, Core.daysBeforeMonth_two]
        omega

/-- The calculated date has the number of the day. -/
theorem civilFromDays_spec (days : Int) :
    Core.IsDate (civilFromDays days).year (civilFromDays days).month.toNat
        (civilFromDays days).day.toNat ∧
      Core.dayNumber (civilFromDays days).year (civilFromDays days).month.toNat
        (civilFromDays days).day.toNat = days + 719528 := by
  obtain ⟨d, hd⟩ := CycleDay.exists_number (n := ((days + 719468) % 146097).toNat) (by omega)
  obtain ⟨era, hera⟩ : ∃ era, era = (days + 719468) / 146097 := ⟨_, rfl⟩
  have hdays : days + 719468 = 146097 * era + d.number := by omega
  have hdate := civilFromDays_eq hdays (by omega) rfl
  obtain ⟨hvalid, hnumber⟩ := civilDate_spec d era rfl hdate
  refine ⟨hvalid, ?_⟩
  rw [hnumber]
  omega

end BinlogCdc
