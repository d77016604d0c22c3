import BinlogCdc.Core.Utf8
import BinlogCdc.Stream.CivilDate

/-!
# Reading dates and times

A date or time of the target is read from its text: decimal numbers between separators, and a
fraction of six digits or none. The texts of the stream are read as the parts they were made of, and
the text of a timestamp as the moment in UTC.
-/

namespace BinlogCdc

/-! ## Readers -/

/-- The decimal number that a text begins with, and what follows it. -/
def takeNumber (text : Text) : Option (Nat × Text) :=
  let digits := text.takeWhile Char.isDigit
  if digits = [] then none else some (decimalValue digits, text.dropWhile Char.isDigit)

/-- Numbers between separators, and what follows them. -/
def readFields : List Char → Text → Option (List Nat × Text)
  | [], text => (takeNumber text).map fun (n, rest) => ([n], rest)
  | separator :: separators, text =>
    match takeNumber text with
    | some (n, c :: rest) =>
      if c = separator then
        (readFields separators rest).map fun (numbers, rest) => (n :: numbers, rest)
      else none
    | _ => none

/-- The microseconds at the end of a text. -/
def readMicros : Text → Option Nat
  | [] => some 0
  | c :: digits =>
    if c = '.' ∧ digits.length = 6 ∧ digits.all Char.isDigit then some (decimalValue digits)
    else none

/-- Numbers between separators, and a fraction. -/
def readParts (separators : List Char) (text : Text) : Option (List Nat × Nat) :=
  match readFields separators text with
  | some (numbers, rest) => (readMicros rest).map fun micros => (numbers, micros)
  | none => none

def readDate (text : Text) : Option (List Nat) :=
  match readFields ['-', '-'] text with
  | some (numbers, []) => some numbers
  | _ => none

def readDatetime (text : Text) : Option (List Nat × Nat) :=
  readParts ['-', '-', ' ', ':', ':'] text

/-- A time; the sign says that it is negative. -/
def readTime (text : Text) : Option (Bool × List Nat × Nat) :=
  match text with
  | '-' :: text => (readParts [':', ':'] text).map fun parts => (true, parts)
  | text => (readParts [':', ':'] text).map fun parts => (false, parts)

/-! ## Padded numbers -/

theorem isDigit_of_mem_pad {width n : Nat} {c : Char} (h : c ∈ pad width n) : c.isDigit = true := by
  rcases List.mem_append.mp h with hzero | hdigit
  · rw [List.eq_of_mem_replicate hzero]
    decide
  · exact Nat.isDigit_of_mem_toDigits (by decide) (by decide) hdigit

theorem decimalValue_pad (width n : Nat) : decimalValue (pad width n) = n := by
  rw [pad, decimalValue, Core.positionalValue_replicate_append 10 decimalDigit (by decide)]
  exact decimalValue_toDigits n

theorem pad_ne_nil (width n : Nat) : pad width n ≠ [] := by
  simp [pad, Nat.toDigits_ne_nil]

theorem length_pad {width n : Nat} (hwidth : 0 < width) (h : n < 10 ^ width) :
    (pad width n).length = width := by
  have hle : (Nat.toDigits 10 n).length ≤ width := (Nat.length_toDigits_le_iff (by decide) hwidth).mpr h
  rw [pad, List.length_append, List.length_replicate]
  omega

theorem takeNumber_pad (width n : Nat) {rest : Text} (hrest : ∀ c ∈ rest.head?, c.isDigit = false) :
    takeNumber (pad width n ++ rest) = some (n, rest) := by
  have hdigits : ∀ c ∈ pad width n, c.isDigit = true := fun c hc => isDigit_of_mem_pad hc
  have hnone : rest.takeWhile Char.isDigit = [] ∧ rest.dropWhile Char.isDigit = rest := by
    cases rest with
    | nil => exact ⟨rfl, rfl⟩
    | cons c rest =>
      have hc := hrest c rfl
      rw [List.takeWhile_cons, List.dropWhile_cons, hc]
      exact ⟨rfl, rfl⟩
  unfold takeNumber
  rw [List.takeWhile_append_of_pos hdigits, List.dropWhile_append_of_pos hdigits, hnone.1, hnone.2,
    List.append_nil]
  rw [if_neg (pad_ne_nil width n), decimalValue_pad]

theorem readFields_cons {separator : Char} (hseparator : separator.isDigit = false)
    (separators : List Char) (width n : Nat) (rest : Text) :
    readFields (separator :: separators) (pad width n ++ separator :: rest) =
      (readFields separators rest).map fun (numbers, rest) => (n :: numbers, rest) := by
  have hnumber : takeNumber (pad width n ++ separator :: rest) = some (n, separator :: rest) := by
    apply takeNumber_pad
    rintro c ⟨⟩
    exact hseparator
  simp only [readFields, hnumber, if_true]

theorem readFields_last (width n : Nat) (rest : Text) (hrest : ∀ c ∈ rest.head?, c.isDigit = false) :
    readFields [] (pad width n ++ rest) = some ([n], rest) := by
  simp only [readFields, takeNumber_pad width n hrest, Option.map_some]

/-- What is appended for microseconds is read back. -/
theorem readMicros_appendMicros {micros : Nat} (h : micros < 1000000) :
    ∃ fraction : Text, (∀ base, appendMicros base micros = base ++ fraction) ∧
      (∀ c ∈ fraction.head?, c.isDigit = false) ∧ readMicros fraction = some micros := by
  by_cases hzero : micros = 0
  · refine ⟨[], ?_, by simp, ?_⟩
    · intro base
      rw [appendMicros, if_pos hzero, List.append_nil]
    · rw [hzero]
      rfl
  · refine ⟨'.' :: pad 6 micros, ?_, ?_, ?_⟩
    · intro base
      rw [appendMicros, if_neg hzero]
    · rintro c ⟨⟩
      decide
    · have hall : (pad 6 micros).all Char.isDigit = true :=
        List.all_eq_true.mpr fun c hc => isDigit_of_mem_pad hc
      rw [readMicros, if_pos ⟨rfl, length_pad (by decide) h, hall⟩, decimalValue_pad]

/-! ## The texts of the stream -/

theorem readDate_formatDate (year : UInt16) (month day : UInt8) :
    readDate (formatDate year month day) = some [year.toNat, month.toNat, day.toNat] := by
  have hlast := readFields_last 2 day.toNat [] (by simp)
  rw [List.append_nil] at hlast
  unfold readDate formatDate
  rw [readFields_cons (by decide), readFields_cons (by decide), hlast]
  rfl

/-- The text of a date and a time of day is read as its parts. -/
theorem readDatetime_parts (year month day hour minute second : Nat) {micros : Nat}
    (hmicros : micros < 1000000) :
    readDatetime (appendMicros (pad 4 year ++ '-' :: (pad 2 month ++ '-' :: (pad 2 day ++ ' ' ::
      (pad 2 hour ++ ':' :: (pad 2 minute ++ ':' :: pad 2 second))))) micros) =
      some ([year, month, day, hour, minute, second], micros) := by
  obtain ⟨fraction, happend, hhead, hread⟩ := readMicros_appendMicros hmicros
  rw [happend]
  simp only [List.append_assoc, List.cons_append]
  unfold readDatetime readParts
  rw [readFields_cons (by decide), readFields_cons (by decide), readFields_cons (by decide),
    readFields_cons (by decide), readFields_cons (by decide), readFields_last 2 second _ hhead]
  simp only [Option.map_some, hread]

theorem readDatetime_formatDatetime (year : UInt16) (month day hour minute second : UInt8)
    (micros : UInt32) (hmicros : micros.toNat < 1000000) :
    readDatetime (formatDatetime year month day hour minute second micros) =
      some ([year.toNat, month.toNat, day.toNat, hour.toNat, minute.toNat, second.toNat],
        micros.toNat) :=
  readDatetime_parts _ _ _ _ _ _ hmicros

theorem readParts_time (width hour minute second : Nat) {micros : Nat} (hmicros : micros < 1000000) :
    readParts [':', ':'] (appendMicros (pad width hour ++ ':' :: (pad 2 minute ++ ':' ::
      pad 2 second)) micros) = some ([hour, minute, second], micros) := by
  obtain ⟨fraction, happend, hhead, hread⟩ := readMicros_appendMicros hmicros
  rw [happend]
  simp only [List.append_assoc, List.cons_append]
  unfold readParts
  rw [readFields_cons (by decide), readFields_cons (by decide), readFields_last 2 second _ hhead]
  simp only [Option.map_some, hread]

/-- The text of a time is read as its sign and its parts. -/
theorem readTime_formatTime (hour : Int) (minute second : UInt8) (micros : UInt32)
    (hmicros : micros.toNat < 1000000) :
    readTime (formatTime hour minute second micros) =
      some (decide (hour < 0), [hour.natAbs, minute.toNat, second.toNat], micros.toNat) := by
  have hparts : ∀ width, readParts [':', ':'] (appendMicros (pad width hour.natAbs ++ ':' ::
      (pad 2 minute.toNat ++ ':' :: pad 2 second.toNat)) micros.toNat) =
      some ([hour.natAbs, minute.toNat, second.toNat], micros.toNat) :=
    fun width => readParts_time width _ _ _ hmicros
  have hcons : ∀ base, appendMicros ('-' :: base) micros.toNat =
      '-' :: appendMicros base micros.toNat := by
    intro base
    unfold appendMicros
    split_ifs <;> rfl
  unfold formatTime padInt
  by_cases hnegative : hour < 0
  · rw [if_pos hnegative, List.cons_append, hcons, readTime, hparts]
    simp [hnegative]
  · rw [if_neg hnegative]
    have hhead : ∀ text, appendMicros (pad 2 hour.natAbs ++ ':' :: (pad 2 minute.toNat ++ ':' ::
        pad 2 second.toNat)) micros.toNat ≠ '-' :: text := by
      intro text htext
      obtain ⟨fraction, happend, -, -⟩ := readMicros_appendMicros hmicros
      obtain ⟨c, digits, hdigits⟩ := List.exists_cons_of_ne_nil (pad_ne_nil 2 hour.natAbs)
      have hc : c.isDigit = true := isDigit_of_mem_pad (by rw [hdigits]; exact List.mem_cons_self)
      rw [happend, hdigits] at htext
      obtain ⟨rfl, -⟩ := List.cons.inj htext
      cases hc
    unfold readTime
    split
    · next text htext => exact absurd htext (hhead text)
    · rw [hparts]
      simp [hnegative]

/-! ## Moments -/

/-- The microseconds from the start of the year zero to 1970. -/
def epochMicros : Int := 719528 * 86400 * 1000000

/-- The parts of a date with a time of day are those of a moment in UTC. -/
def IsMoment (micros : Nat) (parts : List Nat × Nat) : Prop :=
  ∃ year month day hour minute second fraction : Nat,
    parts = ([year, month, day, hour, minute, second], fraction) ∧
    Core.IsDate year month day ∧ hour < 24 ∧ minute < 60 ∧ second < 60 ∧ fraction < 1000000 ∧
    (((Core.dayNumber year month day * 24 + hour) * 60 + minute) * 60 + second) * 1000000 + fraction =
      epochMicros + micros

/-- A day since 1970 is in a year that is not negative. -/
theorem civilFromDays_year_nonneg (days : Nat) : ∃ year : Nat, (civilFromDays days).year = year := by
  obtain ⟨hdate, hnumber⟩ := civilFromDays_spec days
  refine ⟨(civilFromDays days).year.toNat, ?_⟩
  by_contra hnegative
  obtain ⟨count, hcount⟩ := Int.le.dest (show (civilFromDays days).year + 1 ≤ 0 by omega)
  have hbefore := hdate.before_next_year
  have hyears := Core.daysBeforeYear_add ((civilFromDays days).year + 1) count
  rw [hcount, Core.daysBeforeYear_zero] at hyears
  omega

/-- The text of a timestamp is read as its moment. -/
theorem readDatetime_formatTimestamp (micros : UInt64) :
    ∃ parts, readDatetime (formatTimestamp micros) = some parts ∧ IsMoment micros.toNat parts := by
  obtain ⟨seconds, hseconds⟩ : ∃ seconds, seconds = micros.toNat / 1000000 := ⟨_, rfl⟩
  obtain ⟨hdate, hnumber⟩ := civilFromDays_spec (seconds / 86400 : Nat)
  obtain ⟨year, hyear⟩ := civilFromDays_year_nonneg (seconds / 86400)
  have hdays : ((seconds : Nat) : Int) / 86400 = (seconds / 86400 : Nat) := by omega
  have hmicros : micros.toNat % 1000000 < 1000000 := Nat.mod_lt _ (by decide)
  have hbyte : ∀ n, n < 256 → (UInt8.ofNat n).toNat = n := by
    intro n hn
    rw [UInt8.toNat_ofNat']
    omega
  have hhour : (timeFromSeconds ((seconds : Int) % 86400)).hour.toNat = seconds % 86400 / 3600 := by
    unfold timeFromSeconds
    rw [show ((seconds : Int) % 86400 / 3600).toNat = seconds % 86400 / 3600 by omega]
    exact hbyte _ (by omega)
  have hminute : (timeFromSeconds ((seconds : Int) % 86400)).minute.toNat =
      seconds % 3600 / 60 := by
    unfold timeFromSeconds
    rw [show ((seconds : Int) % 86400 % 3600 / 60).toNat = seconds % 3600 / 60 by omega]
    exact hbyte _ (by omega)
  have hsecond : (timeFromSeconds ((seconds : Int) % 86400)).second.toNat = seconds % 60 := by
    unfold timeFromSeconds
    rw [show ((seconds : Int) % 86400 % 60).toNat = seconds % 60 by omega]
    exact hbyte _ (by omega)
  have hpad : padInt 4 (year : Int) = pad 4 year := by
    rw [padInt, if_neg (by omega), Int.natAbs_natCast]
  unfold formatTimestamp splitUnixSeconds
  simp only [← hseconds, hdays, hyear, hhour, hminute, hsecond, hpad]
  rw [hyear] at hdate hnumber
  refine ⟨_, readDatetime_parts _ _ _ _ _ _ hmicros, year, _, _, _, _, _, _, rfl, hdate, ?_, ?_, ?_,
    hmicros, ?_⟩
  · omega
  · omega
  · omega
  · rw [hnumber]
    unfold epochMicros
    omega

/-- Texts with the same bytes are the same. -/
theorem bytesValue_injective {text other : Text} (h : bytesValue text = bytesValue other) :
    text = other := by
  have hbytes : utf8Bytes (String.ofList text) = utf8Bytes (String.ofList other) :=
    TargetValue.bytes.inj h
  have htext := congrArg String.toList (Core.toUTF8_injective hbytes)
  rwa [String.toList_ofList, String.toList_ofList] at htext

end BinlogCdc
