import BinlogCdc.Core.Calendar
import BinlogCdc.Stream.Event
import BinlogCdc.Sync.ProgressRow
import BinlogCdc.Sync.UpdateStatement

/-!
# Cells as target values

A decoded cell becomes the value that is bound for its column. Integers are read as signed or
unsigned as the column says, bit fields become bytes, an ordinal of an enumeration becomes its label
where the labels are known, and dates and times become texts.
-/

namespace BinlogCdc

/-! ## Numbers -/

def signExtendU24 (value : UInt32) : Int :=
  if value &&& 0x800000 = 0 then value.toNat else (value.toNat : Int) - 0x1000000

def convertMysqlIntegerValue (value : MySqlValue) (signed : Bool) : Option TargetValue :=
  match value with
  | .tinyInt value => some (if signed then .int value.toInt8.toInt else .uint value.toNat)
  | .smallInt value => some (if signed then .int value.toInt16.toInt else .uint value.toNat)
  | .mediumInt value => some (if signed then .int (signExtendU24 value) else .uint value.toNat)
  | .int value => some (if signed then .int value.toInt32.toInt else .uint value.toNat)
  | .bigInt value => some (if signed then .int value.toInt64.toInt else .uint value.toNat)
  | _ => none

def packBitValue (bits : List Bool) : List UInt8 :=
  let numericValue := bits.foldl (fun (value : UInt64) bit => value <<< 1 ||| bit.toUInt64) 0
  let byteCount := (max bits.length 1 + 7) / 8
  (List.range byteCount).map fun index =>
    let shift := (byteCount - index - 1) * 8
    ((numericValue >>> UInt64.ofNat shift) &&& 0xff).toUInt8

/-! ## Texts -/

def bytesValue (value : Text) : TargetValue := .bytes (utf8Bytes (String.ofList value))

def enumValueToTargetValue (ordinal : UInt32) (enumValues : Option (List String)) :
    Except ApplyBinlogError TargetValue :=
  match enumValues with
  | none => .ok (.uint ordinal.toNat)
  | some enumValues =>
    if ordinal = 0 then .ok (.bytes (utf8Bytes ""))
    else
      match enumValues[ordinal.toNat - 1]? with
      | some value => .ok (.bytes (utf8Bytes value))
      | none => .error (mappingError
          s!"enum ordinal {ordinal.toNat} exceeds {enumValues.length} metadata values")

def convertMysqlScalarValue (value : MySqlValue) (enumValues : Option (List String)) :
    Except ApplyBinlogError (Option TargetValue) :=
  match value with
  | .float bits => .ok (some (.float bits))
  | .double bits => .ok (some (.double bits))
  | .decimal value => .ok (some (.bytes (utf8Bytes value)))
  | .string value => .ok (some (.bytes (utf8Bytes value)))
  | .bit value => .ok (some (.bytes (packBitValue value)))
  | .enum value => (enumValueToTargetValue value enumValues).map some
  | .set value => .ok (some (.uint value.toNat))
  | .blob value => .ok (some (.bytes value))
  | .year value => .ok (some (.uint value.toNat))
  | _ => .ok none

/-! ## Dates and times -/

structure DateParts where
  year : Int
  month : UInt8
  day : UInt8
deriving DecidableEq, Repr

structure TimeParts where
  hour : UInt8
  minute : UInt8
  second : UInt8
deriving DecidableEq, Repr

/-- The date of a number of days since 1970. Years are counted from March. -/
def civilFromDays (daysSinceEpoch : Int) : DateParts :=
  let days := daysSinceEpoch + 719468
  let era := days / 146097
  let dayOfEra := days - era * 146097
  let yearOfEra := (dayOfEra - dayOfEra / 1460 + dayOfEra / 36524 - dayOfEra / 146096) / 365
  let year := yearOfEra + era * 400
  let dayOfYear := dayOfEra - (365 * yearOfEra + yearOfEra / 4 - yearOfEra / 100)
  let monthPhase := (5 * dayOfYear + 2) / 153
  let day := dayOfYear - (153 * monthPhase + 2) / 5 + 1
  let month := monthPhase + if monthPhase < 10 then 3 else -9
  { year := year + if month ≤ 2 then 1 else 0
    month := UInt8.ofNat month.toNat
    day := UInt8.ofNat day.toNat }

def timeFromSeconds (secondsOfDay : Int) : TimeParts where
  hour := UInt8.ofNat (secondsOfDay / 3600).toNat
  minute := UInt8.ofNat (secondsOfDay % 3600 / 60).toNat
  second := UInt8.ofNat (secondsOfDay % 60).toNat

def splitUnixSeconds (seconds : Int) : DateParts × TimeParts :=
  (civilFromDays (seconds / 86400), timeFromSeconds (seconds % 86400))

/-- A signed number padded with zeros after its sign. -/
def padInt (width : Nat) (n : Int) : Text :=
  if n < 0 then '-' :: pad (width - 1) n.natAbs else pad width n.natAbs

/-- An absent fraction stays bare. -/
def appendMicros (base : Text) (micros : Nat) : Text :=
  if micros = 0 then base else base ++ '.' :: pad 6 micros

def formatDate (year : UInt16) (month day : UInt8) : Text :=
  pad 4 year.toNat ++ '-' :: (pad 2 month.toNat ++ '-' :: pad 2 day.toNat)

def formatTime (hour : Int) (minute second : UInt8) (micros : UInt32) : Text :=
  appendMicros (padInt 2 hour ++ ':' :: (pad 2 minute.toNat ++ ':' :: pad 2 second.toNat))
    micros.toNat

def formatDatetime (year : UInt16) (month day hour minute second : UInt8) (micros : UInt32) : Text :=
  appendMicros (pad 4 year.toNat ++ '-' :: (pad 2 month.toNat ++ '-' :: (pad 2 day.toNat ++ ' ' ::
    (pad 2 hour.toNat ++ ':' :: (pad 2 minute.toNat ++ ':' :: pad 2 second.toNat))))) micros.toNat

def formatTimestamp (micros : UInt64) : Text :=
  let (date, time) := splitUnixSeconds (micros.toNat / 1000000 : Nat)
  appendMicros (padInt 4 date.year ++ '-' :: (pad 2 date.month.toNat ++ '-' ::
    (pad 2 date.day.toNat ++ ' ' :: (pad 2 time.hour.toNat ++ ':' ::
      (pad 2 time.minute.toNat ++ ':' :: pad 2 time.second.toNat))))) (micros.toNat % 1000000)

def convertMysqlTemporalValue (value : MySqlValue) : Option TargetValue :=
  match value with
  | .date year month day => some (bytesValue (formatDate year month day))
  | .time hour minute second micros => some (bytesValue (formatTime hour minute second micros))
  | .dateTime year month day hour minute second micros =>
    some (bytesValue (formatDatetime year month day hour minute second micros))
  | .timestamp micros => some (bytesValue (formatTimestamp micros))
  | _ => none

def mysqlValueToTargetValue (value : Option MySqlValue) (signed : Bool)
    (enumValues : Option (List String)) : Except ApplyBinlogError TargetValue :=
  match value with
  | none => .ok .null
  | some value =>
    match convertMysqlIntegerValue value signed with
    | some targetValue => .ok targetValue
    | none => do
      match ← convertMysqlScalarValue value enumValues with
      | some targetValue => pure targetValue
      -- One of the three conversions covers the value.
      | none => pure ((convertMysqlTemporalValue value).getD .null)

/-- Every value is covered by one of the conversions. -/
theorem convertMysqlTemporalValue_isSome {value : MySqlValue} {signed : Bool}
    {enumValues : Option (List String)} (hinteger : convertMysqlIntegerValue value signed = none)
    (hscalar : convertMysqlScalarValue value enumValues = .ok none) :
    (convertMysqlTemporalValue value).isSome = true := by
  cases value with
  | enum ordinal =>
    simp only [convertMysqlScalarValue] at hscalar
    cases hlabel : enumValueToTargetValue ordinal enumValues with
    | error error =>
      rw [hlabel] at hscalar
      cases hscalar
    | ok targetValue =>
      rw [hlabel] at hscalar
      cases hscalar
  | date => rfl
  | time => rfl
  | dateTime => rfl
  | timestamp => rfl
  | tinyInt | smallInt | mediumInt | int | bigInt => cases hinteger
  | float | double | decimal | string | bit | set | blob | year => cases hscalar

example : packBitValue [true, false, true, false, true, false, true, false, true] = [1, 85] := by
  decide

example : formatTimestamp 1782075535000001 = "2026-06-21 20:58:55.000001".toList := by
  decide +kernel

end BinlogCdc
