import BinlogCdc.Stream.TemporalText

/-!
# Dates without overflow

The calculation of a date with every operation checked for the range of its machine integer and every
cast for the bits it keeps. It succeeds for every day whose shifted number is in range, and finds what
the calculation with unbounded numbers finds.
-/

namespace BinlogCdc

/-- A result in the range of a signed integer with 64 bits. -/
def inI64 (value : Int) : Option Int :=
  if -9223372036854775808 ≤ value ∧ value ≤ 9223372036854775807 then some value else none

/-- A cast to a byte that keeps the value. -/
def castU8 (value : Int) : Option UInt8 :=
  if 0 ≤ value ∧ value < 256 then some (UInt8.ofNat value.toNat) else none

/-- A cast to 32 bits that keeps the value. -/
def castU32 (value : Nat) : Option UInt32 :=
  if value < 4294967296 then some (UInt32.ofNat value) else none

theorem inI64_bind {α : Type} {value : Int}
    (h : -9223372036854775808 ≤ value ∧ value ≤ 9223372036854775807) (next : Int → Option α) :
    (inI64 value >>= next) = next value := by
  rw [inI64, if_pos h]
  rfl

theorem castU8_bind {α : Type} {value : Int} (h : 0 ≤ value ∧ value < 256)
    (next : UInt8 → Option α) :
    (castU8 value >>= next) = next (UInt8.ofNat value.toNat) := by
  rw [castU8, if_pos h]
  rfl

theorem castU32_bind {α : Type} {value : Nat} (h : value < 4294967296) (next : UInt32 → Option α) :
    (castU32 value >>= next) = next (UInt32.ofNat value) := by
  rw [castU32, if_pos h]
  rfl

/-! ## The checked calculation -/

/-- `civilFromDays` with its operations in the order of the source; `/` rounds towards zero there. -/
def checkedCivilFromDays (daysSinceEpoch : Int) : Option DateParts := do
  let days ← inI64 (daysSinceEpoch + 719468)
  let era ← inI64 (days / 146097)
  let eraDays ← inI64 (era * 146097)
  let dayOfEra ← inI64 (days - eraDays)
  let withoutLeapDays ← inI64 (dayOfEra - dayOfEra.tdiv 1460)
  let withCenturies ← inI64 (withoutLeapDays + dayOfEra.tdiv 36524)
  let withoutCycle ← inI64 (withCenturies - dayOfEra.tdiv 146096)
  let yearOfEra := withoutCycle.tdiv 365
  let eraYears ← inI64 (era * 400)
  let year ← inI64 (yearOfEra + eraYears)
  let yearDays ← inI64 (365 * yearOfEra)
  let leapDays ← inI64 (yearDays + yearOfEra.tdiv 4)
  let daysBefore ← inI64 (leapDays - yearOfEra.tdiv 100)
  let dayOfYear ← inI64 (dayOfEra - daysBefore)
  let fiveDays ← inI64 (5 * dayOfYear)
  let shifted ← inI64 (fiveDays + 2)
  let monthPhase := shifted.tdiv 153
  let phaseDays ← inI64 (153 * monthPhase)
  let phaseShifted ← inI64 (phaseDays + 2)
  let dayBefore ← inI64 (dayOfYear - phaseShifted.tdiv 5)
  let day ← inI64 (dayBefore + 1)
  let month ← inI64 (monthPhase + if monthPhase < 10 then 3 else -9)
  let year ← inI64 (year + if month ≤ 2 then 1 else 0)
  let month ← castU8 month
  let day ← castU8 day
  return { year, month, day }

/-- `timeFromSeconds` with its casts. -/
def checkedTimeFromSeconds (secondsOfDay : Int) : Option TimeParts := do
  let hour ← castU8 (secondsOfDay.tdiv 3600)
  let minute ← castU8 ((secondsOfDay.tmod 3600).tdiv 60)
  let second ← castU8 (secondsOfDay.tmod 60)
  return { hour, minute, second }

/-- `formatTimestamp` with its casts; the quotient and remainder by a day are the Euclidean ones. -/
def checkedFormatTimestamp (micros : UInt64) : Option Text := do
  let seconds ← inI64 (micros.toNat / 1000000 : Nat)
  let date ← checkedCivilFromDays (seconds / 86400)
  let time ← checkedTimeFromSeconds (seconds % 86400)
  let fraction ← castU32 (micros.toNat % 1000000)
  return appendMicros (padInt 4 date.year ++ '-' :: (pad 2 date.month.toNat ++ '-' ::
    (pad 2 date.day.toNat ++ ' ' :: (pad 2 time.hour.toNat ++ ':' ::
      (pad 2 time.minute.toNat ++ ':' :: pad 2 time.second.toNat))))) fraction.toNat

/-! ## Its results -/

/-- The numbers that the calculation finds on its way. -/
theorem dayOfYear_bounds {dayOfEra : Int} (h : 0 ≤ dayOfEra ∧ dayOfEra ≤ 146096) {yearOfEra : Int}
    (hyear : yearOfEra =
      (dayOfEra - dayOfEra / 1460 + dayOfEra / 36524 - dayOfEra / 146096) / 365) :
    0 ≤ yearOfEra ∧ yearOfEra ≤ 399 ∧
      0 ≤ dayOfEra - (365 * yearOfEra + yearOfEra / 4 - yearOfEra / 100) ∧
      dayOfEra - (365 * yearOfEra + yearOfEra / 4 - yearOfEra / 100) ≤ 365 := by
  obtain ⟨d, hd⟩ := CycleDay.exists_number (n := dayOfEra.toNat) (by omega)
  have hnumber : dayOfEra = d.number := by omega
  have hparts := d.number_eq
  have hle := d.yearOfCycle_le
  have hday := d.day_le
  rw [hnumber, d.yearOfCycle_eq] at hyear
  rw [hyear]
  omega

/-- No operation leaves its range and no cast loses bits. -/
theorem checkedCivilFromDays_eq {days : Int} (hdays : -9223372036854775808 ≤ days)
    (hshifted : days + 719468 ≤ 9223372036854775807) :
    checkedCivilFromDays days = some (civilFromDays days) := by
  obtain ⟨era, hera⟩ : ∃ era, era = (days + 719468) / 146097 := ⟨_, rfl⟩
  obtain ⟨dayOfEra, hdayOfEra⟩ : ∃ dayOfEra, dayOfEra = days + 719468 - era * 146097 := ⟨_, rfl⟩
  have hdayBounds : 0 ≤ dayOfEra ∧ dayOfEra ≤ 146096 := by omega
  obtain ⟨yearOfEra, hyearOfEra⟩ : ∃ yearOfEra, yearOfEra =
      (dayOfEra - dayOfEra / 1460 + dayOfEra / 36524 - dayOfEra / 146096) / 365 := ⟨_, rfl⟩
  obtain ⟨hyearPos, hyearLe, hdayPos, hdayLe⟩ := dayOfYear_bounds hdayBounds hyearOfEra
  obtain ⟨dayOfYear, hdayOfYear⟩ : ∃ dayOfYear, dayOfYear =
      dayOfEra - (365 * yearOfEra + yearOfEra / 4 - yearOfEra / 100) := ⟨_, rfl⟩
  obtain ⟨monthPhase, hmonthPhase⟩ : ∃ monthPhase, monthPhase = (5 * dayOfYear + 2) / 153 :=
    ⟨_, rfl⟩
  have hphase : 0 ≤ monthPhase ∧ monthPhase ≤ 11 := by omega
  have hday : 0 ≤ dayOfYear - (153 * monthPhase + 2) / 5 ∧
      dayOfYear - (153 * monthPhase + 2) / 5 ≤ 30 := by
    obtain ⟨day, hdayNat⟩ : ∃ day : Nat, dayOfYear = day := ⟨dayOfYear.toNat, by omega⟩
    obtain ⟨-, hstart, hend, -, -⟩ := @marchDay_bounds day monthPhase.toNat (by omega)
      (by omega)
    omega
  have hcalculated : civilFromDays days =
      { year := yearOfEra + era * 400 + if monthPhase + (if monthPhase < 10 then 3 else -9) ≤ 2 then 1 else 0
        month := UInt8.ofNat (monthPhase + if monthPhase < 10 then 3 else -9).toNat
        day := UInt8.ofNat (dayOfYear - (153 * monthPhase + 2) / 5 + 1).toNat } := by
    rw [hmonthPhase, hdayOfYear, hyearOfEra, hdayOfEra, hera]
    rfl
  have hmonth : 0 ≤ (monthPhase + if monthPhase < 10 then 3 else -9) ∧
      (monthPhase + if monthPhase < 10 then 3 else -9) ≤ 12 := by
    split_ifs <;> omega
  have hfinalYear : ∀ start : Int, -9223372036854775808 ≤ start → start ≤ 9223372036854775806 →
      -9223372036854775808 ≤
          (start + if monthPhase + (if monthPhase < 10 then 3 else -9) ≤ 2 then 1 else 0) ∧
        (start + if monthPhase + (if monthPhase < 10 then 3 else -9) ≤ 2 then 1 else 0) ≤
          9223372036854775807 := by
    intro start hlow hhigh
    split_ifs <;> omega
  rw [hcalculated]
  unfold checkedCivilFromDays
  rw [inI64_bind (by omega), inI64_bind (by omega), ← hera, inI64_bind (by omega), ← hdayOfEra,
    inI64_bind (by omega)]
  simp only [Int.tdiv_eq_ediv_of_nonneg hdayBounds.1]
  rw [inI64_bind (by omega), inI64_bind (by omega), inI64_bind (by omega)]
  have hquotient : (dayOfEra - dayOfEra / 1460 + dayOfEra / 36524 - dayOfEra / 146096).tdiv 365 =
      yearOfEra := by
    rw [hyearOfEra]
    exact Int.tdiv_eq_ediv_of_nonneg (by omega)
  rw [hquotient]
  simp only [Int.tdiv_eq_ediv_of_nonneg hyearPos]
  rw [inI64_bind (by omega), inI64_bind (by omega), inI64_bind (by omega), inI64_bind (by omega),
    inI64_bind (by omega), ← hdayOfYear, inI64_bind (by omega), inI64_bind (by omega),
    inI64_bind (by omega)]
  have hphaseQuotient : (5 * dayOfYear + 2).tdiv 153 = monthPhase := by
    rw [hmonthPhase]
    exact Int.tdiv_eq_ediv_of_nonneg (by omega)
  rw [hphaseQuotient]
  have hphaseDays : (153 * monthPhase + 2).tdiv 5 = (153 * monthPhase + 2) / 5 :=
    Int.tdiv_eq_ediv_of_nonneg (by omega)
  rw [inI64_bind (by omega), inI64_bind (by omega), hphaseDays, inI64_bind (by omega),
    inI64_bind (by omega), inI64_bind (by omega),
    inI64_bind (hfinalYear _ (by omega) (by omega)), castU8_bind (by omega), castU8_bind (by omega)]
  rfl

/-- A second of a day has an hour, a minute and a second of one byte. -/
theorem checkedTimeFromSeconds_eq {secondsOfDay : Int} (hlow : 0 ≤ secondsOfDay)
    (hhigh : secondsOfDay < 86400) :
    checkedTimeFromSeconds secondsOfDay = some (timeFromSeconds secondsOfDay) := by
  unfold checkedTimeFromSeconds
  rw [Int.tdiv_eq_ediv_of_nonneg hlow, Int.tmod_eq_emod_of_nonneg hlow,
    Int.tmod_eq_emod_of_nonneg hlow]
  rw [Int.tdiv_eq_ediv_of_nonneg (by omega), castU8_bind (by omega), castU8_bind (by omega),
    castU8_bind (by omega)]
  rfl

theorem checkedFormatTimestamp_eq (micros : UInt64) :
    checkedFormatTimestamp micros = some (formatTimestamp micros) := by
  have hmicros : micros.toNat < 18446744073709551616 := micros.toNat_lt
  have hfraction : (UInt32.ofNat (micros.toNat % 1000000)).toNat = micros.toNat % 1000000 := by
    rw [UInt32.toNat_ofNat']
    omega
  unfold checkedFormatTimestamp
  rw [inI64_bind (by omega), checkedCivilFromDays_eq (by omega) (by omega),
    checkedTimeFromSeconds_eq (by omega) (by omega)]
  dsimp only [Option.bind_eq_bind, Option.bind_some]
  rw [← Option.bind_eq_bind, castU32_bind (by omega), hfraction]
  rfl

/-! ## Dates and moments -/

/-- The day numbers whose shifted number is a signed integer with 64 bits. -/
def IsDayCount (days : Int) : Prop :=
  -9223372036854775808 ≤ days ∧ days + 719468 ≤ 9223372036854775807

/-- The dates of days are as the days are. -/
theorem civilFromDays_earlier {days later : Int} (h : days < later) :
    Core.Earlier
      ((civilFromDays days).year, (civilFromDays days).month.toNat, (civilFromDays days).day.toNat)
      ((civilFromDays later).year, (civilFromDays later).month.toNat,
        (civilFromDays later).day.toNat) := by
  obtain ⟨hdate, hnumber⟩ := civilFromDays_spec days
  obtain ⟨hlater, hlaterNumber⟩ := civilFromDays_spec later
  rw [Core.earlier_iff hdate hlater, hnumber, hlaterNumber]
  omega

/-- The number of a day of a timestamp is one of these. -/
theorem isDayCount_of_micros (micros : UInt64) :
    IsDayCount ((micros.toNat / 1000000 / 86400 : Nat) : Int) := by
  have hmicros : micros.toNat < 18446744073709551616 := micros.toNat_lt
  unfold IsDayCount
  omega

/-- Every day whose shifted number is in range has the date of the Gregorian calendar with its number,
later days have later dates, and the text of every timestamp is read as its moment. No operation
leaves its range and no cast loses bits. -/
theorem checkedCivilFromDays_gregorian :
    (∀ days, IsDayCount days → ∃ date, checkedCivilFromDays days = some date ∧
      Core.IsDate date.year date.month.toNat date.day.toNat ∧
      Core.dayNumber date.year date.month.toNat date.day.toNat = days + 719528) ∧
    (∀ days later date laterDate, IsDayCount days → IsDayCount later → days < later →
      checkedCivilFromDays days = some date → checkedCivilFromDays later = some laterDate →
      Core.Earlier (date.year, date.month.toNat, date.day.toNat)
        (laterDate.year, laterDate.month.toNat, laterDate.day.toNat)) ∧
    (∀ micros : UInt64, IsDayCount ((micros.toNat / 1000000 / 86400 : Nat) : Int)) ∧
    ∀ micros : UInt64, ∃ text parts, checkedFormatTimestamp micros = some text ∧
      readDatetime text = some parts ∧ IsMoment micros.toNat parts := by
  refine ⟨?_, ?_, isDayCount_of_micros, ?_⟩
  · intro days hdays
    exact ⟨_, checkedCivilFromDays_eq hdays.1 hdays.2, civilFromDays_spec days⟩
  · intro days later date laterDate hdays hlater hlt hdate hlaterDate
    rw [checkedCivilFromDays_eq hdays.1 hdays.2] at hdate
    rw [checkedCivilFromDays_eq hlater.1 hlater.2] at hlaterDate
    obtain rfl := Option.some.inj hdate
    obtain rfl := Option.some.inj hlaterDate
    exact civilFromDays_earlier hlt
  · intro micros
    obtain ⟨parts, hread, hmoment⟩ := readDatetime_formatTimestamp micros
    exact ⟨_, parts, checkedFormatTimestamp_eq micros, hread, hmoment⟩

/-- A leap day at the end of a cycle of 400 years. -/
theorem checkedCivilFromDays_gregorian_leapDay :
    ∃ date, checkedCivilFromDays 11016 = some date ∧
      Core.dayNumber date.year date.month.toNat date.day.toNat = 730544 ∧
      date = { year := 2000, month := 2, day := 29 } := by
  obtain ⟨date, hdate, -, hnumber⟩ := checkedCivilFromDays_gregorian.1 11016 (by unfold IsDayCount; omega)
  have hleapDay : checkedCivilFromDays 11016 = some { year := 2000, month := 2, day := 29 } := by decide
  exact ⟨date, hdate, hnumber, Option.some.inj (hdate.symm.trans hleapDay)⟩

end BinlogCdc
