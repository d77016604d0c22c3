import BinlogCdc.Binlog.DecimalCell
import BinlogCdc.Stream.StoredValue

/-!
# How the server writes cells

The layouts of the column types in row images: the type code and the metadata that the table map
announces, and the bytes of a value. Temporal values with a fraction have two digits of it in a byte,
and a negative duration is written as a difference, which leaves its sign bit clear. The cell reader
makes the cell of the value of these bytes, and it rejects every negative duration.
-/

namespace BinlogCdc.MysqlCdc

open BinlogCdc.Core

/-! ## Layouts -/

/-- How the values of a column are written. -/
inductive ColumnLayout : SourceColumnType → Type
  | integer {width : IntegerWidth} {unsigned : Bool} : ColumnLayout (.integer width unsigned)
  | float : ColumnLayout .float
  | double : ColumnLayout .double
  | decimal (precision scale : Nat) (h : 0 < precision ∧ precision < 256 ∧ scale ≤ precision) :
      ColumnLayout .decimal
  /-- A string of a size in bytes. -/
  | varChar (size : Nat) (h : size < 65536) : ColumnLayout .text
  | varString (size : Nat) (h : size < 65536) : ColumnLayout .text
  | char (size : Nat) (h : size < 1024) : ColumnLayout .text
  /-- A large object, with the bytes of its length. -/
  | blob (code : UInt8) (lengthBytes : Nat) (hcode : code ∈ ([245, 249, 250, 251, 252, 255] : List UInt8))
      (h : 1 ≤ lengthBytes ∧ lengthBytes ≤ 4) : ColumnLayout .blob
  | bit {size : Nat} : ColumnLayout (.bit size)
  | enum {labels : List String} (width : Nat) (h : 1 ≤ width ∧ width ≤ 2) :
      ColumnLayout (.enum labels)
  | set {members : List String} (width : Nat) (h : 1 ≤ width ∧ width ≤ 8) :
      ColumnLayout (.set members)
  | year : ColumnLayout .year
  | date : ColumnLayout .date
  /-- The types before fractions of a second. -/
  | time : ColumnLayout .time
  | dateTime : ColumnLayout .datetime
  | timestamp : ColumnLayout .timestamp
  /-- The types with some digits of a fraction. -/
  | time2 (digits : Nat) (h : digits ≤ 6) : ColumnLayout .time
  | dateTime2 (digits : Nat) (h : digits ≤ 6) : ColumnLayout .datetime
  | timestamp2 (digits : Nat) (h : digits ≤ 6) : ColumnLayout .timestamp

def integerCode : IntegerWidth → UInt8
  | .tiny => 1
  | .small => 2
  | .medium => 9
  | .int => 3
  | .big => 8

/-- The length of a character column has its high bits, inverted, in the byte of the type. -/
def charMetadata (size : Nat) : UInt16 :=
  UInt16.ofNat ((254 ^^^ (size / 256 * 16)) * 256 + size % 256)

namespace ColumnLayout

/-- The type code in the table map. -/
def code {type : SourceColumnType} : ColumnLayout type → UInt8
  | @integer width _ => integerCode width
  | float => 4
  | double => 5
  | decimal _ _ _ => 246
  | varChar _ _ => 15
  | varString _ _ => 253
  | char _ _ => 254
  | blob code _ _ _ => code
  | bit => 16
  | enum _ _ => 254
  | set _ _ => 254
  | year => 13
  | date => 10
  | time => 11
  | dateTime => 12
  | timestamp => 7
  | time2 _ _ => 19
  | dateTime2 _ _ => 18
  | timestamp2 _ _ => 17

/-- The metadata in the table map. -/
def metadata {type : SourceColumnType} : ColumnLayout type → UInt16
  | float => 4
  | double => 8
  | decimal precision scale _ => decimalMetadata precision scale
  | varChar size _ => UInt16.ofNat size
  | varString size _ => UInt16.ofNat size
  | char size _ => charMetadata size
  | blob _ lengthBytes _ _ => UInt16.ofNat lengthBytes
  | @bit size => UInt16.ofNat (size % 8 + 256 * (size / 8))
  | enum width _ => UInt16.ofNat (247 * 256 + width)
  | set width _ => UInt16.ofNat (248 * 256 + width)
  | time2 digits _ => UInt16.ofNat digits
  | dateTime2 digits _ => UInt16.ofNat digits
  | timestamp2 digits _ => UInt16.ofNat digits
  | _ => 0

end ColumnLayout

/-! ## Bytes -/

/-- The bytes of a fraction of some digits. -/
def fractionWidth (digits : Nat) : Nat := (digits + 1) / 2

/-- The microseconds have no more digits than the column. -/
def FitsDigits (digits micros : Nat) : Prop := 10 ^ (6 - digits) ∣ micros

/-- The fraction, two digits in a byte. -/
def fractionOf (digits micros : Nat) : Nat := micros / 100 ^ (3 - fractionWidth digits)

/-- A number behind a sign bit that is set, and the fraction behind it. -/
def signedFraction (width digits number micros : Nat) : List UInt8 :=
  bigEndian width number ++ bigEndian (fractionWidth digits) (fractionOf digits micros)

def packedTime (hour minute second : Nat) : Nat := hour * 2 ^ 12 + minute * 2 ^ 6 + second

/-- The bytes of a duration that is not negative. -/
def timeBytes (digits hour minute second micros : Nat) : List UInt8 :=
  signedFraction 3 digits (2 ^ 23 + packedTime hour minute second) micros

/-- The bytes of a negative duration: it is taken from the number with the sign bit alone. -/
def negativeTimeBytes (digits hour minute second micros : Nat) : List UInt8 :=
  bigEndian (3 + fractionWidth digits) (2 ^ 23 * 256 ^ fractionWidth digits -
    (packedTime hour minute second * 256 ^ fractionWidth digits + fractionOf digits micros))

def oldTime (hour minute second : Nat) : Nat := hour * 10000 + minute * 100 + second

def packedDateTime (year month day hour minute second : Nat) : Nat :=
  (year * 13 + month) * 2 ^ 22 + day * 2 ^ 17 + hour * 2 ^ 12 + minute * 2 ^ 6 + second

def oldDateTime (year month day hour minute second : Nat) : Nat :=
  ((((year * 100 + month) * 100 + day) * 100 + hour) * 100 + minute) * 100 + second

/-- The bytes that the layout has for the value; a value that does not fit into the column has none. -/
def ColumnLayout.Stores {type : SourceColumnType} (layout : ColumnLayout type)
    (value : StoredValue type) (bytes : List UInt8) : Prop :=
  match layout, value with
  | integer, @StoredValue.integer width _ value _ =>
    bytes = toLeBytes (width.bits / 8) (value % 2 ^ width.bits).toNat
  | float, .float bits => bytes = toLeBytes 4 bits.toNat
  | double, .double bits => bytes = toLeBytes 8 bits.toNat
  | decimal precision scale _, .decimal value =>
    ∃ unscaled : Int, unscaled.natAbs < 10 ^ precision ∧
      value = String.ofList (decimalText scale unscaled) ∧
      bytes = decimalBytes precision scale unscaled
  | varChar size _, .text text =>
    text.length ≤ size ∧ bytes = toLeBytes (if size < 256 then 1 else 2) text.length ++ text
  | varString size _, .text text =>
    text.length ≤ size ∧ bytes = toLeBytes (if size < 256 then 1 else 2) text.length ++ text
  | char size _, .text text =>
    text.length ≤ size ∧ bytes = toLeBytes (if size < 256 then 1 else 2) text.length ++ text
  | blob _ lengthBytes _ _, .blob content =>
    content.length < 256 ^ lengthBytes ∧ bytes = toLeBytes lengthBytes content.length ++ content
  | bit, @StoredValue.bit size value _ _ => bytes = bigEndian (bitmapWidth size) value
  | enum width _, .enum ordinal _ => ordinal < 256 ^ width ∧ bytes = toLeBytes width ordinal
  | set width _, .set mask => mask.toNat < 256 ^ width ∧ bytes = toLeBytes width mask.toNat
  -- A year is written as its distance from 1900, and the zero year as zero.
  | year, .year value _ => bytes = [UInt8.ofNat (value - 1900)]
  | date, .date y month day _ => bytes = toLeBytes 3 (y * 2 ^ 9 + month * 2 ^ 5 + day)
  | time, .time negative hour minute second micros _ _ =>
    micros = 0 ∧ bytes = toLeBytes 3 (if negative then 2 ^ 24 - oldTime hour minute second
      else oldTime hour minute second)
  | dateTime, .datetime y month day hour minute second micros _ =>
    micros = 0 ∧ bytes = toLeBytes 8 (oldDateTime y month day hour minute second)
  | timestamp, .zeroTimestamp => bytes = toLeBytes 4 0
  | timestamp, .timestamp micros _ => micros % 1000000 = 0 ∧ bytes = toLeBytes 4 (micros / 1000000)
  | time2 digits _, .time negative hour minute second micros _ _ =>
    FitsDigits digits micros ∧ bytes = if negative then
      negativeTimeBytes digits hour minute second micros
      else timeBytes digits hour minute second micros
  | dateTime2 digits _, .datetime y month day hour minute second micros _ =>
    FitsDigits digits micros ∧ bytes = signedFraction 5 digits
      (2 ^ 39 + packedDateTime y month day hour minute second) micros
  | timestamp2 digits _, .zeroTimestamp => bytes = signedFraction 4 digits 0 0
  | timestamp2 digits _, .timestamp micros _ =>
    FitsDigits digits (micros % 1000000) ∧
      bytes = signedFraction 4 digits (micros / 1000000) (micros % 1000000)

/-- A duration below zero. -/
def IsNegativeTime {type : SourceColumnType} : StoredValue type → Prop
  | .time negative _ _ _ _ _ _ => negative = true
  | _ => False

/-! ## Numbers -/

theorem reads_readLe {width number : Nat} (h : number < 256 ^ width) :
    Reads (readLe width) (toLeBytes width number) number :=
  reads_leNumber _ h

theorem reads_readU8 {number : Nat} (h : number < 256) :
    Reads readU8 (toLeBytes 1 number) (UInt8.ofNat number) :=
  (reads_readLe (by omega)).map UInt8.ofNat

theorem reads_readUintLe {width number : Nat} (hwidth : 1 ≤ width ∧ width ≤ 8)
    (h : number < 256 ^ width) : Reads (readUintLe width) (toLeBytes width number) number := by
  rw [readUintLe, if_pos hwidth]
  exact reads_readLe h

theorem reads_integer (width : IntegerWidth) (value : Int) (metadata : UInt16) :
    Reads (readCell (integerCode width) metadata)
      (toLeBytes (width.bits / 8) (value % 2 ^ width.bits).toNat) (width.cell value) := by
  cases width with
  | tiny =>
    have hlt : (value % 2 ^ 8).toNat < 256 := by omega
    exact (reads_readU8 hlt).map MySqlValue.tinyInt
  | small =>
    have hlt : (value % 2 ^ 16).toNat < 256 ^ 2 := by omega
    exact (reads_readLe hlt).map fun number => MySqlValue.smallInt (UInt16.ofNat number)
  | medium =>
    have hlt : (value % 2 ^ 24).toNat < 256 ^ 3 := by omega
    exact (reads_readLe hlt).map fun number => MySqlValue.mediumInt (UInt32.ofNat number)
  | int =>
    have hlt : (value % 2 ^ 32).toNat < 256 ^ 4 := by omega
    exact (reads_readLe hlt).map fun number => MySqlValue.int (UInt32.ofNat number)
  | big =>
    have hlt : (value % 2 ^ 64).toNat < 256 ^ 8 := by omega
    exact (reads_readLe hlt).map fun number => MySqlValue.bigInt (UInt64.ofNat number)

theorem reads_float (bits : UInt32) (metadata : UInt16) :
    Reads (readCell 4 metadata) (toLeBytes 4 bits.toNat) (.float bits) := by
  have hlt : bits.toNat < 256 ^ 4 := bits.toNat_lt
  have hread := (reads_readLe hlt).map fun number =>
    MySqlValue.float (UInt32.ofNat number)
  rw [UInt32.ofNat_toNat] at hread
  exact hread

theorem reads_double (bits : UInt64) (metadata : UInt16) :
    Reads (readCell 5 metadata) (toLeBytes 8 bits.toNat) (.double bits) := by
  have hlt : bits.toNat < 256 ^ 8 := bits.toNat_lt
  have hread := (reads_readLe hlt).map fun number =>
    MySqlValue.double (UInt64.ofNat number)
  rw [UInt64.ofNat_toNat] at hread
  exact hread

theorem toNat_metadata {number : Nat} (h : number < 65536) : (UInt16.ofNat number).toNat = number := by
  rw [UInt16.toNat_ofNat']
  omega

/-! ## Strings and large objects -/

theorem reads_parseString {size : Nat} (hsize : size < 65536) {text : List UInt8}
    (h : text.length ≤ size) :
    Reads (parseString (UInt16.ofNat size))
      (toLeBytes (if size < 256 then 1 else 2) text.length ++ text) (fromUtf8Lossy text) := by
  have hshort : UInt16.ofNat size < 256 ↔ size < 256 := by
    rw [UInt16.lt_iff_toNat_lt, toNat_metadata hsize]
    rfl
  have hrest := (reads_takeOr Error.unexpectedEof text).map fromUtf8Lossy
  rw [parseString]
  by_cases hone : size < 256
  · rw [if_pos (hshort.mpr hone), if_pos hone]
    refine (reads_readLe (by omega)).bind ?_
    exact hrest
  · rw [if_neg (fun hlt => hone (hshort.mp hlt)), if_neg hone]
    refine (reads_readLe (by omega)).bind ?_
    exact hrest

theorem getActualStringType_char {size : Nat} (h : size < 1024) :
    getActualStringType 254 (charMetadata size) = (254, UInt16.ofNat size) := by
  have hall : ∀ size < 1024,
      getActualStringType 254 (charMetadata size) = (254, UInt16.ofNat size) := by decide +kernel
  exact hall size h

theorem reads_char {size : Nat} (hsize : size < 1024) {text : List UInt8} (h : text.length ≤ size) :
    Reads (readCell 254 (charMetadata size))
      (toLeBytes (if size < 256 then 1 else 2) text.length ++ text) (.string (fromUtf8Lossy text)) := by
  have hread := (reads_parseString (by omega) h).map MySqlValue.string
  have hcell : readCell 254 (charMetadata size) =
      parseString (UInt16.ofNat size) >>= fun text => pure (MySqlValue.string text) := by
    change parseCell (getActualStringType 254 (charMetadata size)).1
      (getActualStringType 254 (charMetadata size)).2 = _
    rw [getActualStringType_char hsize]
    rfl
  rwa [hcell]

theorem reads_parseBlob {lengthBytes : Nat} (hwidth : 1 ≤ lengthBytes ∧ lengthBytes ≤ 4)
    {content : List UInt8} (h : content.length < 256 ^ lengthBytes) :
    Reads (parseBlob (UInt16.ofNat lengthBytes)) (toLeBytes lengthBytes content.length ++ content)
      content := by
  rw [parseBlob, toNat_metadata (by omega)]
  exact (reads_readUintLe (by omega) h).bind (reads_takeOr _ content)

theorem reads_blob {code : UInt8} (hcode : code ∈ ([245, 249, 250, 251, 252, 255] : List UInt8))
    {lengthBytes : Nat} (hwidth : 1 ≤ lengthBytes ∧ lengthBytes ≤ 4) {content : List UInt8}
    (h : content.length < 256 ^ lengthBytes) :
    Reads (readCell code (UInt16.ofNat lengthBytes))
      (toLeBytes lengthBytes content.length ++ content) (.blob content) := by
  have hread := (reads_parseBlob hwidth h).map MySqlValue.blob
  simp only [List.mem_cons, List.not_mem_nil, or_false] at hcode
  rcases hcode with rfl | rfl | rfl | rfl | rfl | rfl <;> exact hread

/-! ## Bits and labels -/

theorem reverse_bits (size value : Nat) :
    ((List.range size).map value.testBit).reverse = bitsOf size value := by
  induction size with
  | zero => rfl
  | succ size ih =>
    rw [List.range_succ, List.map_append, List.reverse_append, ih]
    rfl

theorem bit_metadata {size : Nat} (h : size ≤ 64) :
    ((UInt16.ofNat (size % 8 + 256 * (size / 8)) >>> 8) * 8 +
      (UInt16.ofNat (size % 8 + 256 * (size / 8)) &&& 0xFF)).toNat = size := by
  have hall : ∀ size < 65, ((UInt16.ofNat (size % 8 + 256 * (size / 8)) >>> 8) * 8 +
      (UInt16.ofNat (size % 8 + 256 * (size / 8)) &&& 0xFF)).toNat = size := by decide +kernel
  exact hall size (by omega)

theorem reads_bit {size value : Nat} (h : size ≤ 64) :
    Reads (readCell 16 (UInt16.ofNat (size % 8 + 256 * (size / 8))))
      (bigEndian (bitmapWidth size) value) (.bit (bitsOf size value)) := by
  have hbits := (isBitmap_bigEndian size value).take_eq
  rw [List.length_map, List.length_range] at hbits
  have htake := reads_takeOr Error.unexpectedEof (bigEndian (bitmapWidth size) value)
  rw [length_bigEndian] at htake
  have hread := htake.map fun bytes => (bytes.reverse.flatMap byteBits).take size
  rw [hbits] at hread
  have hbitmap : Reads (parseBit (UInt16.ofNat (size % 8 + 256 * (size / 8))))
      (bigEndian (bitmapWidth size) value) (bitsOf size value) := by
    rw [parseBit]
    simp only [bit_metadata h]
    rw [← reverse_bits]
    exact Reads.map hread List.reverse
  exact hbitmap.map MySqlValue.bit

theorem getActualStringType_labels {width : Nat} (h : width < 256) :
    getActualStringType 254 (UInt16.ofNat (247 * 256 + width)) = (247, UInt16.ofNat width) ∧
      getActualStringType 254 (UInt16.ofNat (248 * 256 + width)) = (248, UInt16.ofNat width) := by
  have hall : ∀ width < 256,
      getActualStringType 254 (UInt16.ofNat (247 * 256 + width)) = (247, UInt16.ofNat width) ∧
        getActualStringType 254 (UInt16.ofNat (248 * 256 + width)) = (248, UInt16.ofNat width) := by
    decide +kernel
  exact hall width h

theorem reads_enum {width ordinal : Nat} (hwidth : 1 ≤ width ∧ width ≤ 2)
    (h : ordinal < 256 ^ width) :
    Reads (readCell 254 (UInt16.ofNat (247 * 256 + width))) (toLeBytes width ordinal)
      (.enum (UInt32.ofNat ordinal)) := by
  have hcell : readCell 254 (UInt16.ofNat (247 * 256 + width)) =
      readUintLe width >>= fun number => pure (MySqlValue.enum (UInt32.ofNat number)) := by
    change parseCell (getActualStringType 254 (UInt16.ofNat (247 * 256 + width))).1
      (getActualStringType 254 (UInt16.ofNat (247 * 256 + width))).2 = _
    rw [(getActualStringType_labels (by omega)).1]
    change (readUintLe (UInt16.ofNat width).toNat >>= fun number =>
      pure (MySqlValue.enum (UInt32.ofNat number)) : PayloadReader MySqlValue) = _
    rw [toNat_metadata (by omega)]
  rw [hcell]
  exact (reads_readUintLe (by omega) h).map fun number => MySqlValue.enum (UInt32.ofNat number)

theorem reads_set {width : Nat} {mask : UInt64} (hwidth : 1 ≤ width ∧ width ≤ 8)
    (h : mask.toNat < 256 ^ width) :
    Reads (readCell 254 (UInt16.ofNat (248 * 256 + width))) (toLeBytes width mask.toNat)
      (.set mask) := by
  have hcell : readCell 254 (UInt16.ofNat (248 * 256 + width)) =
      readUintLe width >>= fun number => pure (MySqlValue.set (UInt64.ofNat number)) := by
    change parseCell (getActualStringType 254 (UInt16.ofNat (248 * 256 + width))).1
      (getActualStringType 254 (UInt16.ofNat (248 * 256 + width))).2 = _
    rw [(getActualStringType_labels (by omega)).2]
    change (readUintLe (UInt16.ofNat width).toNat >>= fun number =>
      pure (MySqlValue.set (UInt64.ofNat number)) : PayloadReader MySqlValue) = _
    rw [toNat_metadata (by omega)]
  have hread := (reads_readUintLe hwidth h).map fun number => MySqlValue.set (UInt64.ofNat number)
  rw [UInt64.ofNat_toNat] at hread
  rwa [hcell]

/-! ## Fractions of a second -/

theorem fraction_length {digits : Nat} (h : digits ≤ 6) :
    (UInt16.ofNat digits + 1) / 2 = UInt16.ofNat (fractionWidth digits) ∧
      fractionWidth digits ≤ 3 := by
  interval_cases digits <;> decide

theorem fraction_factor {width : Nat} (h : width ≤ 3) :
    (100 : UInt64) ^ (3 - (UInt16.ofNat width).toUInt32).toNat = UInt64.ofNat (100 ^ (3 - width)) := by
  interval_cases width <;> rfl

/-- The parts of the fraction are some number; for the fraction of a value they are its microseconds. -/
theorem reads_parseFractionalPart {digits number : Nat} (h : digits ≤ 6)
    (hnumber : number < 256 ^ fractionWidth digits) :
    Reads (parseFractionalPart (UInt16.ofNat digits)) (bigEndian (fractionWidth digits) number)
      (UInt64.ofNat (number * 100 ^ (3 - fractionWidth digits))) := by
  obtain ⟨hlength, hthree⟩ := fraction_length h
  rw [parseFractionalPart]
  simp only [hlength]
  by_cases hzero : fractionWidth digits = 0
  · rw [hzero] at hnumber ⊢
    obtain rfl : number = 0 := by omega
    exact .pure _
  · have hne : UInt16.ofNat (fractionWidth digits) ≠ 0 := by
      intro heq
      have hnat := congrArg UInt16.toNat heq
      rw [toNat_metadata (by omega)] at hnat
      exact hzero hnat
    have hread : Reads (readUintBe (fractionWidth digits)) (bigEndian (fractionWidth digits) number)
        number := by
      rw [readUintBe, if_pos (by omega)]
      exact reads_readBe hnumber
    rw [if_neg hne, toNat_metadata (by omega), fraction_factor hthree, UInt64.ofNat_mul]
    exact hread.map fun fraction =>
      UInt64.ofNat fraction * UInt64.ofNat (100 ^ (3 - fractionWidth digits))

theorem fractionOf_mul {digits micros : Nat} (hdigits : digits ≤ 6) (hmicros : micros < 1000000)
    (hfits : FitsDigits digits micros) :
    fractionOf digits micros < 256 ^ fractionWidth digits ∧
      fractionOf digits micros * 100 ^ (3 - fractionWidth digits) = micros := by
  have hfactor : 100 ^ (3 - fractionWidth digits) ∣ 10 ^ (6 - digits) := by
    have hpow : 100 = 10 ^ 2 := rfl
    rw [hpow, ← Nat.pow_mul]
    apply Nat.pow_dvd_pow
    unfold fractionWidth
    omega
  have hdvd : 100 ^ (3 - fractionWidth digits) ∣ micros := hfactor.trans hfits
  refine ⟨?_, Nat.div_mul_cancel hdvd⟩
  rw [fractionOf]
  have hthree := (fraction_length hdigits).2
  generalize fractionWidth digits = width at hthree
  interval_cases width <;> omega

theorem reads_fractionOf {digits micros : Nat} (h : digits ≤ 6) (hmicros : micros < 1000000)
    (hfits : FitsDigits digits micros) :
    Reads (parseFractionalPart (UInt16.ofNat digits))
      (bigEndian (fractionWidth digits) (fractionOf digits micros)) (UInt64.ofNat micros) := by
  obtain ⟨hlt, hmul⟩ := fractionOf_mul h hmicros hfits
  have hread := reads_parseFractionalPart h hlt
  rwa [hmul] at hread

theorem toUInt32_micros (micros : Nat) :
    (UInt64.ofNat micros).toUInt32 = UInt32.ofNat micros := by
  apply UInt32.toNat_inj.mp
  rw [UInt64.toNat_toUInt32, UInt64.toNat_ofNat', UInt32.toNat_ofNat']
  omega

/-! ## Dates and times -/

theorem reads_year {value : Nat} (h : value = 0 ∨ 1901 ≤ value ∧ value ≤ 2155) (metadata : UInt16) :
    Reads (readCell 13 metadata) [UInt8.ofNat (value - 1900)]
      (.year (UInt16.ofNat (if value = 0 then 1900 else value))) := by
  have hlt : value - 1900 < 256 := by omega
  have hread := ((reads_readU8 hlt).map fun byte => 1900 + byte.toUInt16).map MySqlValue.year
  have hyear : 1900 + (UInt8.ofNat (value - 1900)).toUInt16 =
      UInt16.ofNat (if value = 0 then 1900 else value) := by
    apply UInt16.toNat_inj.mp
    rw [UInt16.toNat_add, UInt8.toNat_toUInt16, UInt8.toNat_ofNat', UInt16.toNat_ofNat']
    change (1900 + (value - 1900) % 2 ^ 8) % 2 ^ 16 = _
    split <;> omega
  rw [hyear] at hread
  exact hread

theorem reads_date {year month day : Nat} (h : year ≤ 9999 ∧ month ≤ 12 ∧ day ≤ 31)
    (metadata : UInt16) :
    Reads (readCell 10 metadata) (toLeBytes 3 (year * 2 ^ 9 + month * 2 ^ 5 + day))
      (.date (UInt16.ofNat year) (UInt8.ofNat month) (UInt8.ofNat day)) := by
  have hlt : year * 2 ^ 9 + month * 2 ^ 5 + day < 256 ^ 3 := by omega
  have hday : (year * 2 ^ 9 + month * 2 ^ 5 + day) % 2 ^ 5 = day := by omega
  have hmonth : (year * 2 ^ 9 + month * 2 ^ 5 + day) / 2 ^ 5 % 2 ^ 4 = month := by omega
  have hyear : (year * 2 ^ 9 + month * 2 ^ 5 + day) / 2 ^ 9 = year := by omega
  have hread := (reads_readLe hlt).map fun value => MySqlValue.date (UInt16.ofNat (value / 2 ^ 9))
    (UInt8.ofNat (value / 2 ^ 5 % 2 ^ 4)) (UInt8.ofNat (value % 2 ^ 5))
  rw [hday, hmonth, hyear] at hread
  exact hread

theorem reads_time {hour minute second : Nat} (h : hour ≤ 838 ∧ minute < 60 ∧ second < 60)
    (metadata : UInt16) :
    Reads (readCell 11 metadata) (toLeBytes 3 (oldTime hour minute second))
      (.time hour (UInt8.ofNat minute) (UInt8.ofNat second) 0) := by
  have hlt : oldTime hour minute second < 256 ^ 3 := by
    unfold oldTime
    omega
  have hsecond : oldTime hour minute second % 100 = second := by
    unfold oldTime
    omega
  have hminute : oldTime hour minute second / 100 % 100 = minute := by
    unfold oldTime
    omega
  have hhour : oldTime hour minute second / 100 / 100 = hour := by
    unfold oldTime
    omega
  have hsign : ¬2 ^ 23 ≤ oldTime hour minute second := by
    unfold oldTime
    omega
  rw [← List.append_nil (toLeBytes 3 _)]
  change Reads (parseTime metadata) _ _
  rw [parseTime]
  refine (reads_readLe hlt).bind ?_
  dsimp only
  rw [if_neg hsign, hsecond, hminute, hhour]
  exact .pure _

theorem rejects_time {hour minute second : Nat} (h : hour ≤ 838 ∧ minute < 60 ∧ second < 60)
    (hpos : 0 < oldTime hour minute second) (metadata : UInt16) :
    Rejects (readCell 11 metadata) (toLeBytes 3 (2 ^ 24 - oldTime hour minute second))
      (.string negativeTimeMessage) := by
  have hsign : 2 ^ 23 ≤ 2 ^ 24 - oldTime hour minute second := by
    unfold oldTime
    omega
  have hlt : 2 ^ 24 - oldTime hour minute second < 256 ^ 3 := by omega
  rw [← List.append_nil (toLeBytes 3 _)]
  change Rejects (parseTime metadata) _ _
  rw [parseTime]
  refine (reads_readLe hlt).rejects ?_
  dsimp only
  rw [if_pos hsign]
  exact .reject _

theorem reads_time2 {digits hour minute second micros : Nat} (hdigits : digits ≤ 6)
    (h : hour ≤ 838 ∧ minute < 60 ∧ second < 60 ∧ micros < 1000000)
    (hfits : FitsDigits digits micros) :
    Reads (readCell 19 (UInt16.ofNat digits)) (timeBytes digits hour minute second micros)
      (.time hour (UInt8.ofNat minute) (UInt8.ofNat second) (UInt32.ofNat micros)) := by
  have hlt : 2 ^ 23 + packedTime hour minute second < 256 ^ 3 := by
    unfold packedTime
    omega
  have hsign : ¬(2 ^ 23 + packedTime hour minute second) / 2 ^ 23 % 2 = 0 := by
    unfold packedTime
    omega
  have hhour : (2 ^ 23 + packedTime hour minute second) / 2 ^ 12 % 2 ^ 10 = hour := by
    unfold packedTime
    omega
  have hminute : (2 ^ 23 + packedTime hour minute second) / 2 ^ 6 % 2 ^ 6 = minute := by
    unfold packedTime
    omega
  have hsecond : (2 ^ 23 + packedTime hour minute second) % 2 ^ 6 = second := by
    unfold packedTime
    omega
  change Reads (parseTime2 (UInt16.ofNat digits)) _ _
  rw [parseTime2, timeBytes, signedFraction]
  refine (reads_readBe hlt).bind ?_
  rw [← List.append_nil (bigEndian (fractionWidth digits) _)]
  refine (reads_fractionOf hdigits h.2.2.2 hfits).bind ?_
  dsimp only
  rw [if_neg hsign, hhour, hminute, hsecond, toUInt32_micros]
  exact .pure _

/-- The lowest bytes of a number do not depend on what is above them. -/
theorem bigEndian_mod (width number : Nat) :
    bigEndian width (number % 256 ^ width) = bigEndian width number := by
  induction width generalizing number with
  | zero => rfl
  | succ width ih =>
    have hquotient : number % 256 ^ (width + 1) / 256 = number / 256 % 256 ^ width := by
      rw [Nat.pow_succ', Nat.mod_mul_right_div_self]
    have hlast : number % 256 ^ (width + 1) % 256 = number % 256 :=
      Nat.mod_mod_of_dvd number (Dvd.intro_left (256 ^ width) rfl)
    rw [bigEndian, bigEndian, hquotient, hlast, ih]

/-- A fraction that is not zero has a digit that is written. -/
theorem fractionOf_pos {digits micros : Nat} (hdigits : digits ≤ 6) (hpos : 0 < micros)
    (hfits : FitsDigits digits micros) (hlt : micros < 1000000) : 0 < fractionOf digits micros := by
  have hdigit : 10 ^ (6 - digits) ≤ micros := Nat.le_of_dvd hpos hfits
  apply Nat.div_pos _ (Nat.pow_pos (by decide))
  unfold fractionWidth
  interval_cases digits <;> omega

/-- Every negative duration is rejected. -/
theorem rejects_time2 {digits hour minute second micros : Nat} (hdigits : digits ≤ 6)
    (hpos : 0 < packedTime hour minute second * 256 ^ fractionWidth digits +
      fractionOf digits micros) :
    Rejects (readCell 19 (UInt16.ofNat digits)) (negativeTimeBytes digits hour minute second micros)
      (.string negativeTimeMessage) := by
  rw [negativeTimeBytes, bigEndian_append]
  generalize packedTime hour minute second * 256 ^ fractionWidth digits + fractionOf digits micros =
    magnitude at hpos ⊢
  have hpow : 0 < 256 ^ fractionWidth digits := Nat.pow_pos (by decide)
  generalize hstored : 2 ^ 23 * 256 ^ fractionWidth digits - magnitude = stored
  have hhigh : stored / 256 ^ fractionWidth digits < 2 ^ 23 := by
    apply Nat.div_lt_of_lt_mul
    rw [Nat.mul_comm]
    omega
  have hsign : stored / 256 ^ fractionWidth digits / 2 ^ 23 % 2 = 0 := by
    rw [Nat.div_eq_of_lt hhigh]
  have hfraction := reads_parseFractionalPart hdigits (Nat.mod_lt stored hpow)
  rw [bigEndian_mod] at hfraction
  have hlt : stored / 256 ^ fractionWidth digits < 256 ^ 3 := hhigh.trans (by decide)
  change Rejects (parseTime2 (UInt16.ofNat digits)) _ _
  rw [parseTime2]
  refine (reads_readBe hlt).rejects ?_
  rw [← List.append_nil (bigEndian (fractionWidth digits) stored)]
  refine hfraction.rejects ?_
  dsimp only
  rw [if_pos hsign]
  exact .reject _

theorem reads_dateTime {year month day hour minute second : Nat}
    (h : year ≤ 9999 ∧ month ≤ 12 ∧ day ≤ 31 ∧ hour < 24 ∧ minute < 60 ∧ second < 60)
    (metadata : UInt16) :
    Reads (readCell 12 metadata) (toLeBytes 8 (oldDateTime year month day hour minute second))
      (.dateTime (UInt16.ofNat year) (UInt8.ofNat month) (UInt8.ofNat day) (UInt8.ofNat hour)
        (UInt8.ofNat minute) (UInt8.ofNat second) 0) := by
  generalize hstored : oldDateTime year month day hour minute second = stored
  unfold oldDateTime at hstored
  have hlt : stored < 256 ^ 8 := by omega
  have hsecond : stored % 100 = second := by omega
  have hminute : stored / 100 % 100 = minute := by omega
  have hhour : stored / 100 / 100 % 100 = hour := by omega
  have hday : stored / 100 / 100 / 100 % 100 = day := by omega
  have hmonth : stored / 100 / 100 / 100 / 100 % 100 = month := by omega
  have hyear : stored / 100 / 100 / 100 / 100 / 100 = year := by omega
  have hread := (reads_readLe hlt).map fun value => MySqlValue.dateTime
    (UInt16.ofNat (value / 100 / 100 / 100 / 100 / 100))
    (UInt8.ofNat (value / 100 / 100 / 100 / 100 % 100))
    (UInt8.ofNat (value / 100 / 100 / 100 % 100)) (UInt8.ofNat (value / 100 / 100 % 100))
    (UInt8.ofNat (value / 100 % 100)) (UInt8.ofNat (value % 100)) 0
  rw [hsecond, hminute, hhour, hday, hmonth, hyear] at hread
  exact hread

theorem reads_dateTime2 {digits year month day hour minute second micros : Nat}
    (hdigits : digits ≤ 6)
    (h : year ≤ 9999 ∧ month ≤ 12 ∧ day ≤ 31 ∧ hour < 24 ∧ minute < 60 ∧ second < 60 ∧
      micros < 1000000) (hfits : FitsDigits digits micros) :
    Reads (readCell 18 (UInt16.ofNat digits))
      (signedFraction 5 digits (2 ^ 39 + packedDateTime year month day hour minute second) micros)
      (.dateTime (UInt16.ofNat year) (UInt8.ofNat month) (UInt8.ofNat day) (UInt8.ofNat hour)
        (UInt8.ofNat minute) (UInt8.ofNat second) (UInt32.ofNat micros)) := by
  obtain ⟨hyear, hmonth, hday, hhour, hminute, hsecond, hmicros⟩ := h
  rw [signedFraction]
  generalize hstored : 2 ^ 39 + packedDateTime year month day hour minute second = stored
  unfold packedDateTime at hstored
  have hlt : stored < 256 ^ 5 := by omega
  have hsecond' : stored % 2 ^ 6 = second := by omega
  have hminute' : stored / 2 ^ 6 % 2 ^ 6 = minute := by omega
  have hhour' : stored / 2 ^ 12 % 2 ^ 5 = hour := by omega
  have hday' : stored / 2 ^ 17 % 2 ^ 5 = day := by omega
  have hyearMonth : stored / 2 ^ 22 % 2 ^ 17 = year * 13 + month := by omega
  have hmonth' : (year * 13 + month) % 13 = month := by omega
  have hyear' : (year * 13 + month) / 13 = year := by omega
  change Reads (parseDateTime2 (UInt16.ofNat digits)) _ _
  rw [parseDateTime2]
  refine (reads_readBe hlt).bind ?_
  rw [← List.append_nil (bigEndian (fractionWidth digits) _)]
  refine (reads_fractionOf hdigits hmicros hfits).bind ?_
  dsimp only
  rw [hyearMonth, hmonth', hyear', hday', hhour', hminute', hsecond', toUInt32_micros]
  exact .pure _

theorem ofNat_seconds {seconds micros : Nat} :
    UInt64.ofNat seconds * microsPerSecond + UInt64.ofNat micros =
      UInt64.ofNat (seconds * 1000000 + micros) := by
  rw [UInt64.ofNat_add, UInt64.ofNat_mul]
  rfl

theorem reads_timestamp {seconds : Nat} (h : seconds < 2 ^ 32) (metadata : UInt16) :
    Reads (readCell 7 metadata) (toLeBytes 4 seconds)
      (.timestamp (UInt64.ofNat (seconds * 1000000))) := by
  have hlt : seconds < 256 ^ 4 := h
  have hread := ((reads_readLe hlt).map fun seconds => UInt64.ofNat seconds * microsPerSecond).map
    MySqlValue.timestamp
  rw [UInt64.ofNat_mul]
  exact hread

theorem reads_timestamp2 {digits seconds micros : Nat} (hdigits : digits ≤ 6) (h : seconds < 2 ^ 32)
    (hmicros : micros < 1000000) (hfits : FitsDigits digits micros) :
    Reads (readCell 17 (UInt16.ofNat digits)) (signedFraction 4 digits seconds micros)
      (.timestamp (UInt64.ofNat (seconds * 1000000 + micros))) := by
  have hlt : seconds < 256 ^ 4 := h
  have hparts : Reads (parseTimestamp2 (UInt16.ofNat digits)) (signedFraction 4 digits seconds micros)
      (UInt64.ofNat (seconds * 1000000 + micros)) := by
    rw [parseTimestamp2, signedFraction, ← ofNat_seconds]
    refine (reads_readBe hlt).bind ?_
    exact (reads_fractionOf hdigits hmicros hfits).map fun micros =>
      UInt64.ofNat seconds * microsPerSecond + micros
  exact hparts.map MySqlValue.timestamp

/-! ## All values -/

/-- The cell reader makes the cell of every value that is not a negative duration. -/
theorem reads_stored {type : SourceColumnType} {layout : ColumnLayout type} {value : StoredValue type}
    {bytes : List UInt8} (h : layout.Stores value bytes) (hsign : ¬IsNegativeTime value) :
    Reads (readCell layout.code layout.metadata) bytes value.cell := by
  cases layout with
  | integer =>
    cases value with
    | integer value hvalue =>
      obtain rfl := h
      exact reads_integer _ value 0
  | float =>
    cases value with
    | float bits =>
      obtain rfl := h
      exact reads_float bits 4
  | double =>
    cases value with
    | double bits =>
      obtain rfl := h
      exact reads_double bits 8
  | decimal precision scale hsize =>
    cases value with
    | decimal text =>
      obtain ⟨unscaled, hlt, rfl, rfl⟩ := h
      exact (reads_parseDecimal hsize.1 hsize.2.1 hsize.2.2 hlt).map MySqlValue.decimal
  | varChar size hsize =>
    cases value with
    | text text =>
      obtain ⟨hlength, rfl⟩ := h
      exact (reads_parseString hsize hlength).map MySqlValue.string
  | varString size hsize =>
    cases value with
    | text text =>
      obtain ⟨hlength, rfl⟩ := h
      exact (reads_parseString hsize hlength).map MySqlValue.string
  | char size hsize =>
    cases value with
    | text text =>
      obtain ⟨hlength, rfl⟩ := h
      exact reads_char hsize hlength
  | blob code lengthBytes hcode hwidth =>
    cases value with
    | blob content =>
      obtain ⟨hlength, rfl⟩ := h
      exact reads_blob hcode hwidth hlength
  | bit =>
    cases value with
    | bit value hsize hvalue =>
      obtain rfl := h
      exact reads_bit hsize.2
  | enum width hwidth =>
    cases value with
    | enum ordinal hordinal =>
      obtain ⟨hlt, rfl⟩ := h
      exact reads_enum hwidth hlt
  | set width hwidth =>
    cases value with
    | set mask =>
      obtain ⟨hlt, rfl⟩ := h
      exact reads_set hwidth hlt
  | year =>
    cases value with
    | year value hvalue =>
      obtain rfl := h
      exact reads_year hvalue 0
  | date =>
    cases value with
    | date year month day hdate =>
      obtain rfl := h
      exact reads_date hdate 0
  | time =>
    cases value with
    | time negative hour minute second micros hparts =>
      obtain ⟨rfl, rfl⟩ := h
      obtain rfl : negative = false := Bool.eq_false_of_not_eq_true hsign
      exact reads_time ⟨hparts.1, hparts.2.1, hparts.2.2.1⟩ 0
  | dateTime =>
    cases value with
    | datetime year month day hour minute second micros hparts =>
      obtain ⟨rfl, rfl⟩ := h
      obtain ⟨hyear, hmonth, hday, hhour, hminute, hsecond, -⟩ := hparts
      exact reads_dateTime ⟨hyear, hmonth, hday, hhour, hminute, hsecond⟩ 0
  | timestamp =>
    cases value with
    | zeroTimestamp =>
      obtain rfl := h
      exact @reads_timestamp 0 (by decide) 0
    | timestamp micros hmicros =>
      obtain ⟨hwhole, rfl⟩ := h
      have hread := reads_timestamp hmicros.2 0
      rw [Nat.div_mul_cancel (Nat.dvd_of_mod_eq_zero hwhole)] at hread
      exact hread
  | time2 digits hdigits =>
    cases value with
    | time negative hour minute second micros hparts =>
      obtain ⟨hfits, rfl⟩ := h
      obtain rfl : negative = false := Bool.eq_false_of_not_eq_true hsign
      exact reads_time2 hdigits hparts hfits
  | dateTime2 digits hdigits =>
    cases value with
    | datetime year month day hour minute second micros hparts =>
      obtain ⟨hfits, rfl⟩ := h
      exact reads_dateTime2 hdigits hparts hfits
  | timestamp2 digits hdigits =>
    cases value with
    | zeroTimestamp =>
      obtain rfl := h
      exact reads_timestamp2 hdigits (by decide) (by decide) (Nat.dvd_zero _)
    | timestamp micros hmicros =>
      obtain ⟨hfits, rfl⟩ := h
      have hread := reads_timestamp2 hdigits hmicros.2 (Nat.mod_lt micros (by decide)) hfits
      rw [Nat.div_add_mod'] at hread
      exact hread

/-- The cell reader rejects every negative duration. -/
theorem rejects_stored {type : SourceColumnType} {layout : ColumnLayout type} {value : StoredValue type}
    {bytes : List UInt8} (h : layout.Stores value bytes) (hsign : IsNegativeTime value) :
    Rejects (readCell layout.code layout.metadata) bytes (.string negativeTimeMessage) := by
  cases value with
  | time negative hour minute second micros hparts hzero =>
    obtain rfl : negative = true := hsign
    have hpos := hzero rfl
    cases layout with
    | time =>
      obtain ⟨rfl, rfl⟩ := h
      rw [if_pos rfl]
      refine rejects_time ⟨hparts.1, hparts.2.1, hparts.2.2.1⟩ ?_ 0
      unfold oldTime
      omega
    | time2 digits hdigits =>
      obtain ⟨hfits, rfl⟩ := h
      rw [if_pos rfl]
      apply rejects_time2 hdigits
      by_cases hpacked : 0 < packedTime hour minute second
      · exact Nat.add_pos_left (Nat.mul_pos hpacked (Nat.pow_pos (by decide))) _
      · have hmicros : 0 < micros := by
          unfold packedTime at hpacked
          omega
        exact Nat.add_pos_right _ (fractionOf_pos hdigits hmicros hfits hparts.2.2.2)
  | _ => exact absurd hsign (by simp [IsNegativeTime])

/-- In every layout of its type a value is read as its cell, or rejected if it is a negative duration. -/
theorem readCell_stored_iff {type : SourceColumnType} (layout : ColumnLayout type)
    (value : StoredValue type) (bytes : List UInt8) (h : layout.Stores value bytes) :
    (Reads (readCell layout.code layout.metadata) bytes value.cell ↔ ¬IsNegativeTime value) ∧
      (Rejects (readCell layout.code layout.metadata) bytes (.string negativeTimeMessage) ↔
        IsNegativeTime value) := by
  refine ⟨⟨fun hreads hsign => ?_, reads_stored h⟩, fun hrejects => ?_, rejects_stored h⟩
  · exact hreads.not_rejects (rejects_stored h hsign)
  · by_contra hsign
    exact (reads_stored h hsign).not_rejects hrejects

/-- Half a second before zero. -/
theorem readCell_stored_iff_negative :
    Rejects (readCell 19 1) [0x7F, 0xFF, 0xFF, 0xCE] (.string negativeTimeMessage) := by
  have hstores : (ColumnLayout.time2 1 (by decide)).Stores
      (.time true 0 0 0 500000 (by decide) (by decide)) [0x7F, 0xFF, 0xFF, 0xCE] :=
    ⟨⟨5, rfl⟩, by decide⟩
  exact (readCell_stored_iff _ _ _ hstores).2.mpr rfl

end BinlogCdc.MysqlCdc
