import BinlogCdc.Stream.TemporalText

/-!
# Stored values

The values that a column of the source can hold, the cell that the binlog carries for each, and what
it means that a value of the target is that value. A cell that is converted with the sign and the
labels of its column is the stored value, but for four kinds of values: a byte string of a text column
that is not UTF-8, the zero year, the zero timestamp, and a label that is read wrongly.
-/

namespace BinlogCdc

/-! ## Column types -/

inductive IntegerWidth where
  | tiny
  | small
  | medium
  | int
  | big
deriving DecidableEq, Repr

def IntegerWidth.bits : IntegerWidth → Nat
  | .tiny => 8
  | .small => 16
  | .medium => 24
  | .int => 32
  | .big => 64

/-- The numbers of an integer column. -/
def IntegerWidth.Holds (width : IntegerWidth) (unsigned : Bool) (value : Int) : Prop :=
  if unsigned then 0 ≤ value ∧ value < 2 ^ width.bits
  else -2 ^ (width.bits - 1) ≤ value ∧ value < 2 ^ (width.bits - 1)

inductive SourceColumnType where
  | integer (width : IntegerWidth) (unsigned : Bool)
  | float
  | double
  | decimal
  /-- Character and byte strings that are not large objects. -/
  | text
  | blob
  | bit (size : Nat)
  | enum (labels : List String)
  | set (members : List String)
  | year
  | date
  | time
  | datetime
  | timestamp
deriving DecidableEq, Repr

namespace SourceColumnType

def isSignedInteger : SourceColumnType → Bool
  | .integer _ unsigned => !unsigned
  | _ => false

def labels : SourceColumnType → Option (List String)
  | .enum labels => some labels
  | _ => none

def members : SourceColumnType → Option (List String)
  | .set members => some members
  | _ => none

end SourceColumnType

/-! ## Values -/

/-- The moment of a timestamp, whose seconds have 32 bits. -/
def IsTimestamp (micros : Nat) : Prop := 0 < micros ∧ micros / 1000000 < 2 ^ 32

/-- A value that is not null, of a column of the type. -/
inductive StoredValue : SourceColumnType → Type where
  | integer {width : IntegerWidth} {unsigned : Bool} (value : Int)
      (h : width.Holds unsigned value) : StoredValue (.integer width unsigned)
  | float (bits : UInt32) : StoredValue .float
  | double (bits : UInt64) : StoredValue .double
  | decimal (value : String) : StoredValue .decimal
  | text (bytes : List UInt8) : StoredValue .text
  | blob (bytes : List UInt8) : StoredValue .blob
  | bit {size : Nat} (value : Nat) (hsize : 0 < size ∧ size ≤ 64) (h : value < 2 ^ size) :
      StoredValue (.bit size)
  /-- The position of a label, or zero for the empty value. -/
  | enum {labels : List String} (ordinal : Nat) (h : ordinal ≤ labels.length ∧ ordinal < 65536) :
      StoredValue (.enum labels)
  | set {members : List String} (mask : UInt64) : StoredValue (.set members)
  | year (value : Nat) (h : value = 0 ∨ 1901 ≤ value ∧ value ≤ 2155) : StoredValue .year
  | date (year month day : Nat) (h : year ≤ 9999 ∧ month ≤ 12 ∧ day ≤ 31) : StoredValue .date
  /-- A duration; zero is not negative. -/
  | time (negative : Bool) (hour minute second micros : Nat)
      (h : hour ≤ 838 ∧ minute < 60 ∧ second < 60 ∧ micros < 1000000)
      (hzero : negative = true → 0 < hour + minute + second + micros) : StoredValue .time
  | datetime (year month day hour minute second micros : Nat)
      (h : year ≤ 9999 ∧ month ≤ 12 ∧ day ≤ 31 ∧ hour < 24 ∧ minute < 60 ∧ second < 60 ∧
        micros < 1000000) : StoredValue .datetime
  /-- The timestamp of no moment. -/
  | zeroTimestamp : StoredValue .timestamp
  | timestamp (micros : Nat) (h : IsTimestamp micros) : StoredValue .timestamp

/-- The bits of a number, the most significant first. -/
def bitsOf : Nat → Nat → List Bool
  | 0, _ => []
  | size + 1, value => value.testBit size :: bitsOf size value

/-- The cell of an integer is its two's complement. -/
def IntegerWidth.cell : IntegerWidth → Int → MySqlValue
  | .tiny, value => .tinyInt (UInt8.ofInt value)
  | .small, value => .smallInt (UInt16.ofInt value)
  | .medium, value => .mediumInt (UInt32.ofNat (value % 2 ^ 24).toNat)
  | .int, value => .int (UInt32.ofInt value)
  | .big, value => .bigInt (UInt64.ofInt value)

/-- The cell that the reader of the binlog makes of a value, if it does not reject it. -/
def StoredValue.cell {type : SourceColumnType} (value : StoredValue type) : MySqlValue :=
  match value with
  | @integer width _ value _ => width.cell value
  | float bits => .float bits
  | double bits => .double bits
  | decimal value => .decimal value
  | text bytes => .string (Core.fromUtf8Lossy bytes)
  | blob bytes => .blob bytes
  | @bit size value _ _ => .bit (bitsOf size value)
  | enum ordinal _ => .enum (UInt32.ofNat ordinal)
  | set mask => .set mask
  -- A year is logged as its distance from 1900, and the zero year as zero.
  | year value _ => .year (UInt16.ofNat (if value = 0 then 1900 else value))
  | date y month day _ => .date (UInt16.ofNat y) (UInt8.ofNat month) (UInt8.ofNat day)
  | time negative hour minute second micros _ _ =>
    .time (if negative then -(hour : Int) else hour) (UInt8.ofNat minute) (UInt8.ofNat second)
      (UInt32.ofNat micros)
  | datetime y month day hour minute second micros _ =>
    .dateTime (UInt16.ofNat y) (UInt8.ofNat month) (UInt8.ofNat day) (UInt8.ofNat hour)
      (UInt8.ofNat minute) (UInt8.ofNat second) (UInt32.ofNat micros)
  | zeroTimestamp => .timestamp 0
  | timestamp micros _ => .timestamp (UInt64.ofNat micros)

/-- The number that a target value is. -/
def TargetValue.number? : TargetValue → Option Int
  | .int value => some value
  | .uint value => some value
  | _ => none

/-- The label at a position; the position zero has the empty value. -/
def enumLabel (labels : List String) (ordinal : Nat) : String := ("" :: labels).getD ordinal ""

/-- The target value is the stored value. -/
def StoredValue.IsValue {type : SourceColumnType} (value : StoredValue type) (target : TargetValue) :
    Prop :=
  match value with
  | integer value _ => target.number? = some value
  | float bits => target = .float bits
  | double bits => target = .double bits
  | decimal value => target = .bytes (utf8Bytes value)
  | text bytes => target = .bytes bytes
  | blob bytes => target = .bytes bytes
  | bit value _ _ =>
    ∃ bytes, target = .bytes bytes ∧ Core.positionalValue 256 UInt8.toNat bytes = value
  | @enum labels ordinal _ => target = .bytes (utf8Bytes (enumLabel labels ordinal))
  | set mask => target.number? = some mask.toNat
  | year value _ => target.number? = some value
  | date y month day _ => ∃ text, target = bytesValue text ∧ readDate text = some [y, month, day]
  | time negative hour minute second micros _ _ =>
    ∃ text, target = bytesValue text ∧ readTime text = some (negative, [hour, minute, second], micros)
  | datetime y month day hour minute second micros _ =>
    ∃ text, target = bytesValue text ∧
      readDatetime text = some ([y, month, day, hour, minute, second], micros)
  | zeroTimestamp =>
    ∃ text, target = bytesValue text ∧ readDatetime text = some ([0, 0, 0, 0, 0, 0], 0)
  | timestamp micros _ =>
    ∃ text parts, target = bytesValue text ∧ readDatetime text = some parts ∧ IsMoment micros parts

/-- The cell of the value still says which value it is. -/
def StoredValue.Survives {type : SourceColumnType} (value : StoredValue type) : Prop :=
  match value with
  | text bytes => ∃ text : String, utf8Bytes text = bytes
  | year value _ => value ≠ 0
  | time negative hour _ _ _ _ _ => negative = true → 0 < hour
  | zeroTimestamp => False
  | _ => True

/-- The label of the value, if it has one. -/
def StoredValue.label? {type : SourceColumnType} (value : StoredValue type) : Option String :=
  match value with
  | @enum labels ordinal _ => if ordinal = 0 then none else some (enumLabel labels ordinal)
  | _ => none

/-! ## Integers -/

theorem signExtendU24_cell {value : Int} (h : IntegerWidth.medium.Holds false value) :
    signExtendU24 (UInt32.ofNat (value % 2 ^ 24).toNat) = value := by
  obtain ⟨hlow, hhigh⟩ : -2 ^ 23 ≤ value ∧ value < 2 ^ 23 := h
  have hnat : (UInt32.ofNat (value % 2 ^ 24).toNat).toNat = (value % 2 ^ 24).toNat := by
    rw [UInt32.toNat_ofNat']
    omega
  have hsign : UInt32.ofNat (value % 2 ^ 24).toNat &&& 0x800000 = 0 ↔
      (value % 2 ^ 24).toNat < 2 ^ 23 := by
    rw [← UInt32.toNat_inj, UInt32.toNat_and, hnat]
    change (value % 2 ^ 24).toNat &&& 2 ^ 23 = 0 ↔ _
    have hlt : (value % 2 ^ 24).toNat < 2 ^ 24 := by omega
    generalize (value % 2 ^ 24).toNat = n at hlt
    have hdiv : n / 2 ^ 23 % 2 = 0 ↔ n < 2 ^ 23 := by omega
    rw [Nat.and_two_pow, Nat.testBit_eq_decide_div_mod_eq]
    simpa using hdiv
  unfold signExtendU24
  rw [hnat]
  by_cases hpositive : (value % 2 ^ 24).toNat < 2 ^ 23
  · rw [if_pos (hsign.mpr hpositive)]
    omega
  · rw [if_neg (fun h => hpositive (hsign.mp h))]
    omega

/-- An integer read with the sign of its column is the integer. -/
theorem convertMysqlIntegerValue_cell {width : IntegerWidth} {unsigned : Bool} {value : Int}
    (h : width.Holds unsigned value) :
    convertMysqlIntegerValue (width.cell value) (!unsigned) =
      some (if unsigned then .uint value.toNat else .int value) := by
  cases unsigned with
  | false =>
    have hbounds : -2 ^ (width.bits - 1) ≤ value ∧ value < 2 ^ (width.bits - 1) := h
    cases width with
    | medium =>
      have hextend := signExtendU24_cell h
      simp only [convertMysqlIntegerValue, IntegerWidth.cell, Bool.not_false, if_true, hextend]
      rfl
    | tiny =>
      obtain ⟨hlow, hhigh⟩ : -2 ^ 7 ≤ value ∧ value < 2 ^ 7 := hbounds
      have hextend : (UInt8.ofInt value).toInt8.toInt = value := by
        rw [UInt8.ofInt, UInt8.toInt8_ofNat', Int8.toInt_ofNat', Int.toNat_of_nonneg (by omega)]
        exact (Int.emod_bmod value (2 ^ 8)).trans (Int.bmod_eq_of_le hlow hhigh)
      simp only [convertMysqlIntegerValue, IntegerWidth.cell, Bool.not_false, if_true, hextend]
      rfl
    | small =>
      obtain ⟨hlow, hhigh⟩ : -2 ^ 15 ≤ value ∧ value < 2 ^ 15 := hbounds
      have hextend : (UInt16.ofInt value).toInt16.toInt = value := by
        rw [UInt16.ofInt, UInt16.toInt16_ofNat', Int16.toInt_ofNat', Int.toNat_of_nonneg (by omega)]
        exact (Int.emod_bmod value (2 ^ 16)).trans (Int.bmod_eq_of_le hlow hhigh)
      simp only [convertMysqlIntegerValue, IntegerWidth.cell, Bool.not_false, if_true, hextend]
      rfl
    | int =>
      obtain ⟨hlow, hhigh⟩ : -2 ^ 31 ≤ value ∧ value < 2 ^ 31 := hbounds
      have hextend : (UInt32.ofInt value).toInt32.toInt = value := by
        rw [UInt32.ofInt, UInt32.toInt32_ofNat', Int32.toInt_ofNat', Int.toNat_of_nonneg (by omega)]
        exact (Int.emod_bmod value (2 ^ 32)).trans (Int.bmod_eq_of_le hlow hhigh)
      simp only [convertMysqlIntegerValue, IntegerWidth.cell, Bool.not_false, if_true, hextend]
      rfl
    | big =>
      obtain ⟨hlow, hhigh⟩ : -2 ^ 63 ≤ value ∧ value < 2 ^ 63 := hbounds
      have hextend : (UInt64.ofInt value).toInt64.toInt = value := by
        rw [UInt64.ofInt, UInt64.toInt64_ofNat', Int64.toInt_ofNat', Int.toNat_of_nonneg (by omega)]
        exact (Int.emod_bmod value (2 ^ 64)).trans (Int.bmod_eq_of_le hlow hhigh)
      simp only [convertMysqlIntegerValue, IntegerWidth.cell, Bool.not_false, if_true, hextend]
      rfl
  | true =>
    obtain ⟨hlow, hhigh⟩ : 0 ≤ value ∧ value < 2 ^ width.bits := h
    cases width with
    | tiny =>
      have hnat : (UInt8.ofInt value).toNat = value.toNat := by
        rw [UInt8.ofInt, UInt8.toNat_ofNat']
        change value < 2 ^ 8 at hhigh
        omega
      simp only [convertMysqlIntegerValue, IntegerWidth.cell, hnat]
      rfl
    | small =>
      have hnat : (UInt16.ofInt value).toNat = value.toNat := by
        rw [UInt16.ofInt, UInt16.toNat_ofNat']
        change value < 2 ^ 16 at hhigh
        omega
      simp only [convertMysqlIntegerValue, IntegerWidth.cell, hnat]
      rfl
    | medium =>
      have hnat : (UInt32.ofNat (value % 2 ^ 24).toNat).toNat = value.toNat := by
        rw [UInt32.toNat_ofNat']
        change value < 2 ^ 24 at hhigh
        omega
      simp only [convertMysqlIntegerValue, IntegerWidth.cell, hnat]
      rfl
    | int =>
      have hnat : (UInt32.ofInt value).toNat = value.toNat := by
        rw [UInt32.ofInt, UInt32.toNat_ofNat']
        change value < 2 ^ 32 at hhigh
        omega
      simp only [convertMysqlIntegerValue, IntegerWidth.cell, hnat]
      rfl
    | big =>
      have hnat : (UInt64.ofInt value).toNat = value.toNat := by
        rw [UInt64.ofInt, UInt64.toNat_ofNat']
        change value < 2 ^ 64 at hhigh
        omega
      simp only [convertMysqlIntegerValue, IntegerWidth.cell, hnat]
      rfl

/-! ## Bit fields -/

theorem length_bitsOf (size value : Nat) : (bitsOf size value).length = size := by
  induction size with
  | zero => rfl
  | succ size ih => rw [bitsOf, List.length_cons, ih]

theorem positionalValue_bitsOf (size value : Nat) :
    Core.positionalValue 2 Bool.toNat (bitsOf size value) = value % 2 ^ size := by
  induction size with
  | zero => rw [Nat.pow_zero, Nat.mod_one]; rfl
  | succ size ih =>
    rw [bitsOf, Core.positionalValue_cons, ih, length_bitsOf, Nat.mod_pow_succ, Nat.toNat_testBit]
    ring

theorem toNat_shiftLeft_or (value : UInt64) (bit : Bool) :
    (value <<< 1 ||| bit.toUInt64).toNat = (value.toNat * 2 + bit.toNat) % 2 ^ 64 := by
  have hbit : bit.toUInt64.toNat = bit.toNat := by cases bit <;> rfl
  have hbound : bit.toNat < 2 ^ 1 := by cases bit <;> decide
  have hshift : (value <<< 1).toNat = 2 ^ 1 * (value.toNat % 2 ^ 63) := by
    rw [UInt64.toNat_shiftLeft, Nat.shiftLeft_eq]
    change value.toNat * 2 ^ 1 % 2 ^ 64 = _
    omega
  rw [UInt64.toNat_or, hbit, hshift, ← Nat.two_pow_add_eq_or_of_lt hbound]
  omega

/-- Bits that are shifted in one by one make their number. -/
theorem toNat_foldl_bits (bits : List Bool) (value : UInt64) :
    (bits.foldl (fun (value : UInt64) bit => value <<< 1 ||| bit.toUInt64) value).toNat =
      (value.toNat * 2 ^ bits.length + Core.positionalValue 2 Bool.toNat bits) % 2 ^ 64 := by
  induction bits generalizing value with
  | nil =>
    have hlt := value.toNat_lt
    rw [List.foldl_nil, List.length_nil, Nat.pow_zero, Nat.mul_one]
    exact (Nat.mod_eq_of_lt hlt).symm
  | cons bit bits ih =>
    rw [List.foldl_cons, ih, toNat_shiftLeft_or, Core.positionalValue_cons, List.length_cons,
      Nat.add_mod, Nat.mod_mul_mod, ← Nat.add_mod]
    congr 1
    ring

theorem toNat_byte (value : UInt64) {place : Nat} (h : place ≤ 7) :
    ((value >>> UInt64.ofNat (place * 8)) &&& 0xff).toUInt8.toNat =
      value.toNat / 256 ^ place % 256 := by
  have hplace : (UInt64.ofNat (place * 8)).toNat % 64 = 8 * place := by
    rw [UInt64.toNat_ofNat']
    omega
  have hpow : 2 ^ (8 * place) = 256 ^ place := Nat.pow_mul 2 8 place
  rw [UInt64.toNat_toUInt8, UInt64.toNat_and, UInt64.toNat_shiftRight, hplace,
    Nat.shiftRight_eq_div_pow, hpow]
  change (value.toNat / 256 ^ place &&& (2 ^ 8 - 1)) % 2 ^ 8 = _
  rw [Nat.and_two_pow_sub_one_eq_mod, Nat.mod_mod]

/-- The bytes of a number, the most significant first, have the value of the number. -/
theorem positionalValue_bytes (value : UInt64) (count : Nat) (h : count ≤ 8) :
    Core.positionalValue 256 UInt8.toNat ((List.range count).map fun index =>
      ((value >>> UInt64.ofNat ((count - index - 1) * 8)) &&& 0xff).toUInt8) =
      value.toNat % 256 ^ count := by
  induction count with
  | zero => rw [Nat.pow_zero, Nat.mod_one]; rfl
  | succ count ih =>
    have hnext : ∀ index, count + 1 - (index + 1) - 1 = count - index - 1 := by omega
    have hfirst : count + 1 - 0 - 1 = count := by omega
    rw [List.range_succ_eq_map, List.map_cons, List.map_map, Core.positionalValue_cons]
    simp only [Function.comp_def, Nat.succ_eq_add_one, hnext, hfirst, List.length_map,
      List.length_range]
    rw [ih (by omega), toNat_byte value (by omega), Nat.mod_pow_succ]
    ring

/-- The bytes of a bit field make its number. -/
theorem packBitValue_bitsOf {size value : Nat} (hsize : 0 < size ∧ size ≤ 64)
    (h : value < 2 ^ size) :
    Core.positionalValue 256 UInt8.toNat (packBitValue (bitsOf size value)) = value := by
  have hcount : (max (bitsOf size value).length 1 + 7) / 8 = (size + 7) / 8 := by
    rw [length_bitsOf]
    omega
  have hword : value < 2 ^ 64 := lt_of_lt_of_le h (Nat.pow_le_pow_right (by decide) hsize.2)
  have hbytes : value < 256 ^ ((size + 7) / 8) := by
    refine lt_of_lt_of_le h ?_
    rw [show 256 = 2 ^ 8 from rfl, ← Nat.pow_mul]
    exact Nat.pow_le_pow_right (by decide) (by omega)
  unfold packBitValue
  simp only [hcount]
  rw [positionalValue_bytes _ _ (by omega), toNat_foldl_bits, positionalValue_bitsOf]
  simp only [UInt64.toNat_zero, Nat.zero_mul, Nat.zero_add]
  rw [Nat.mod_eq_of_lt h, Nat.mod_eq_of_lt hword, Nat.mod_eq_of_lt hbytes]

/-! ## What a converted cell is -/

/-- How the label of a value is known: the labels of its type as they were read. -/
def SourceColumnType.readLabels (type : SourceColumnType) (read : String → String) :
    Option (List String) :=
  type.labels.map (List.map read)

theorem enumLabel_map {labels : List String} {ordinal : Nat} (read : String → String)
    (hzero : ordinal ≠ 0) (h : ordinal ≤ labels.length) :
    (labels.map read)[ordinal - 1]? = some (read (enumLabel labels ordinal)) := by
  cases ordinal with
  | zero => exact absurd rfl hzero
  | succ ordinal =>
    have hlt : ordinal < labels.length := h
    simp [enumLabel, hlt]

theorem utf8Bytes_injective {text other : String} (h : utf8Bytes text = utf8Bytes other) :
    text = other :=
  Core.toUTF8_injective h

/-- A cell that is converted with the sign of its column and with its labels as they were read is the
stored value exactly when the value survives in its cell and its label is read as it is. -/
theorem StoredValue.isValue_iff {type : SourceColumnType} (value : StoredValue type)
    {read : String → String} {target : TargetValue} {signed : Bool} {labels : Option (List String)}
    (hsigned : signed = type.isSignedInteger)
    (hlabels : type.labels.isSome = true → labels = type.readLabels read)
    (h : mysqlValueToTargetValue (some value.cell) signed labels = .ok target) :
    value.IsValue target ↔ value.Survives ∧ ∀ label ∈ value.label?, read label = label := by
  cases value with
  | @integer width unsigned value hholds =>
    have hconvert := convertMysqlIntegerValue_cell hholds
    have htarget : target = if unsigned then .uint value.toNat else .int value := by
      rw [hsigned] at h
      simp only [mysqlValueToTargetValue, cell, SourceColumnType.isSignedInteger, hconvert] at h
      exact (Except.ok.inj h).symm
    have hnumber : target.number? = some value := by
      rw [htarget]
      cases unsigned with
      | false => rfl
      | true =>
        obtain ⟨hlow, -⟩ : 0 ≤ value ∧ value < 2 ^ width.bits := hholds
        exact congrArg some (Int.toNat_of_nonneg hlow)
    simp [IsValue, Survives, label?, hnumber]
  | float bits =>
    cases h
    simp [IsValue, Survives, label?]
  | double bits =>
    cases h
    simp [IsValue, Survives, label?]
  | decimal value =>
    cases h
    simp [IsValue, Survives, label?]
  | text bytes =>
    cases h
    have hlossy := Core.toUTF8_fromUtf8Lossy bytes
    simp only [IsValue, Survives, label?, TargetValue.bytes.injEq]
    simpa [utf8Bytes] using hlossy
  | blob bytes =>
    cases h
    simp [IsValue, Survives, label?]
  | @bit size value hsize hlt =>
    cases h
    have hpack := packBitValue_bitsOf hsize hlt
    have hvalue : (bit value hsize hlt).IsValue (.bytes (packBitValue (bitsOf size value))) :=
      ⟨_, rfl, hpack⟩
    exact iff_of_true hvalue ⟨trivial, by rintro label ⟨⟩⟩
  | @enum members ordinal hordinal =>
    have hnat : (UInt32.ofNat ordinal).toNat = ordinal := by
      rw [UInt32.toNat_ofNat']
      omega
    have hconvert : mysqlValueToTargetValue (some (enum ordinal hordinal).cell) signed labels =
        enumValueToTargetValue (UInt32.ofNat ordinal) (some (members.map read)) := by
      rw [hlabels rfl]
      simp only [mysqlValueToTargetValue, cell, convertMysqlIntegerValue, convertMysqlScalarValue,
        SourceColumnType.readLabels, SourceColumnType.labels, Option.map_some]
      cases enumValueToTargetValue (UInt32.ofNat ordinal) (some (members.map read)) <;> rfl
    rw [hconvert] at h
    unfold enumValueToTargetValue at h
    by_cases hzero : ordinal = 0
    · subst hzero
      have htarget : target = .bytes (utf8Bytes "") := (Except.ok.inj h).symm
      refine iff_of_true htarget ⟨trivial, ?_⟩
      rintro label ⟨⟩
    · have hne : UInt32.ofNat ordinal ≠ 0 := by
        intro heq
        rw [heq] at hnat
        exact hzero hnat.symm
      simp only [if_neg hne, hnat, enumLabel_map read hzero hordinal.1] at h
      have htarget : target = .bytes (utf8Bytes (read (enumLabel members ordinal))) :=
        (Except.ok.inj h).symm
      simp only [IsValue, Survives, label?, if_neg hzero, htarget, TargetValue.bytes.injEq,
        Option.mem_some_iff, forall_eq', true_and]
      exact ⟨utf8Bytes_injective, congrArg utf8Bytes⟩
  | set mask =>
    cases h
    simp [IsValue, Survives, label?, TargetValue.number?]
  | year value hyear =>
    cases h
    by_cases hzero : value = 0
    · subst hzero
      refine iff_of_false ?_ fun hsurvives => hsurvives.1 rfl
      intro hvalue
      cases hvalue
    · have hnat : (UInt16.ofNat value).toNat = value := by
        rw [UInt16.toNat_ofNat']
        omega
      refine iff_of_true ?_ ⟨hzero, by rintro label ⟨⟩⟩
      simp only [IsValue, TargetValue.number?, if_neg hzero, hnat]
      rfl
  | date y month day hdate =>
    cases h
    have hread := readDate_formatDate (UInt16.ofNat y) (UInt8.ofNat month) (UInt8.ofNat day)
    rw [UInt16.toNat_ofNat', UInt8.toNat_ofNat', UInt8.toNat_ofNat', Nat.mod_eq_of_lt (by omega),
      Nat.mod_eq_of_lt (by omega), Nat.mod_eq_of_lt (by omega)] at hread
    refine iff_of_true ⟨_, rfl, hread⟩ ⟨trivial, ?_⟩
    rintro label ⟨⟩
  | time negative hour minute second micros htime =>
    cases h
    have hmicros : (UInt32.ofNat micros).toNat = micros := by
      rw [UInt32.toNat_ofNat']
      omega
    have hread := readTime_formatTime (if negative then -(hour : Int) else hour) (UInt8.ofNat minute)
      (UInt8.ofNat second) (UInt32.ofNat micros) (by rw [hmicros]; omega)
    have habs : (if negative then -(hour : Int) else hour).natAbs = hour := by
      cases negative <;> simp
    -- The sign stands before the hours, and zero hours have none.
    have hsign : decide ((if negative then -(hour : Int) else hour) < 0) = negative ↔
        (negative = true → 0 < hour) := by
      cases negative <;> simp
    rw [hmicros, habs, UInt8.toNat_ofNat', UInt8.toNat_ofNat', Nat.mod_eq_of_lt (by omega),
      Nat.mod_eq_of_lt (by omega)] at hread
    constructor
    · rintro ⟨text, htext, hvalue⟩
      rw [← bytesValue_injective htext, hread] at hvalue
      have hnegative := (Prod.mk.inj (Option.some.inj hvalue)).1
      exact ⟨hsign.mp hnegative, by rintro label ⟨⟩⟩
    · rintro ⟨hsurvives, -⟩
      refine ⟨_, rfl, ?_⟩
      rw [hread, hsign.mpr hsurvives]
  | datetime y month day hour minute second micros hdatetime =>
    cases h
    have hmicros : (UInt32.ofNat micros).toNat = micros := by
      rw [UInt32.toNat_ofNat']
      omega
    have hread := readDatetime_formatDatetime (UInt16.ofNat y) (UInt8.ofNat month)
      (UInt8.ofNat day) (UInt8.ofNat hour) (UInt8.ofNat minute) (UInt8.ofNat second)
      (UInt32.ofNat micros) (by rw [hmicros]; omega)
    rw [hmicros, UInt16.toNat_ofNat', UInt8.toNat_ofNat', UInt8.toNat_ofNat', UInt8.toNat_ofNat',
      UInt8.toNat_ofNat', UInt8.toNat_ofNat', Nat.mod_eq_of_lt (by omega),
      Nat.mod_eq_of_lt (by omega), Nat.mod_eq_of_lt (by omega), Nat.mod_eq_of_lt (by omega),
      Nat.mod_eq_of_lt (by omega), Nat.mod_eq_of_lt (by omega)] at hread
    refine iff_of_true ⟨_, rfl, hread⟩ ⟨trivial, ?_⟩
    rintro label ⟨⟩
  | zeroTimestamp =>
    cases h
    refine iff_of_false ?_ fun hsurvives => hsurvives.1
    rintro ⟨text, htext, hread⟩
    rw [← bytesValue_injective htext] at hread
    revert hread
    decide +kernel
  | timestamp micros htimestamp =>
    cases h
    have hnat : (UInt64.ofNat micros).toNat = micros := by
      have hseconds := htimestamp.2
      rw [UInt64.toNat_ofNat']
      omega
    obtain ⟨parts, hread, hmoment⟩ := readDatetime_formatTimestamp (UInt64.ofNat micros)
    rw [hnat] at hmoment
    refine iff_of_true ⟨_, parts, rfl, hread, hmoment⟩ ⟨trivial, ?_⟩
    rintro label ⟨⟩

/-- An ordinal without labels is not a value. -/
theorem StoredValue.not_isValue_ordinal {labels : List String} (value : StoredValue (.enum labels))
    {target : TargetValue} {signed : Bool}
    (h : mysqlValueToTargetValue (some value.cell) signed none = .ok target) :
    ¬value.IsValue target := by
  cases value with
  | enum ordinal hordinal =>
    cases h
    intro hvalue
    cases hvalue

end BinlogCdc
