import BinlogCdc.Core.BinaryReader
import BinlogCdc.Core.Utf8
import BinlogCdc.Stream.Event
import BinlogCdc.Sync.ProgressRow

/-!
# Cells of the binlog

The reader of the replication client for one cell of a row image. The type code and the metadata of
the column say how the cell is written; a code of a character string hides enumerations and sets,
which are found first. An index past the end of a slice, and a width that the byte order library
refuses, stop the client.
-/

namespace BinlogCdc.MysqlCdc

open BinlogCdc.Core

/-! ## Errors and numbers -/

/-- The errors of the client, as far as decoding makes them. -/
inductive Error
  | unexpectedEof
  | invalidSeek
  | invalidData
  | utf8Error
  | fromUtf8Error
  /-- The connection failed. -/
  | ioError
  | string (message : String)
  deriving DecidableEq, Repr

/-- A computation over the payload of an event. -/
abbrev PayloadReader (α : Type) := Core.Reader Error α

def fail {α : Type} (message : String) : PayloadReader α := Reader.reject (.string message)

def readExact (length : Nat) : PayloadReader (List UInt8) := Reader.takeOr .unexpectedEof length

/-- A number of a fixed width, the lowest byte first. -/
def readLe (width : Nat) : PayloadReader Nat := Reader.leNumber .unexpectedEof width

/-- A number of a fixed width, the highest byte first. -/
def readBe (width : Nat) : PayloadReader Nat := Reader.beNumber .unexpectedEof width

def readU8 : PayloadReader UInt8 := do
  let number ← readLe 1
  return UInt8.ofNat number

/-- A number of a width that is data: the library panics unless it has one to eight bytes. -/
def readUintLe (nbytes : Nat) : PayloadReader Nat :=
  if 1 ≤ nbytes ∧ nbytes ≤ 8 then readLe nbytes else Reader.halt .outOfBounds

def readUintBe (nbytes : Nat) : PayloadReader Nat :=
  if 1 ≤ nbytes ∧ nbytes ≤ 8 then readBe nbytes else Reader.halt .outOfBounds

/-! ## Column types -/

inductive ColumnType
  | decimal | tiny | short | long | float | double | null | timeStamp | longLong | int24 | date
  | time | dateTime | year | newDate | varChar | bit | timeStamp2 | dateTime2 | time2 | json
  | newDecimal | enum | set | tinyBlob | mediumBlob | longBlob | blob | varString | string
  | geometry
  deriving DecidableEq, Repr

/-- The codes that name a column type. -/
def ColumnType.ofCode? (code : UInt8) : Option ColumnType :=
  match code.toNat with
  | 0 => some decimal
  | 1 => some tiny
  | 2 => some short
  | 3 => some long
  | 4 => some float
  | 5 => some double
  | 6 => some null
  | 7 => some timeStamp
  | 8 => some longLong
  | 9 => some int24
  | 10 => some date
  | 11 => some time
  | 12 => some dateTime
  | 13 => some year
  | 14 => some newDate
  | 15 => some varChar
  | 16 => some bit
  | 17 => some timeStamp2
  | 18 => some dateTime2
  | 19 => some time2
  | 245 => some json
  | 246 => some newDecimal
  | 247 => some enum
  | 248 => some set
  | 249 => some tinyBlob
  | 250 => some mediumBlob
  | 251 => some longBlob
  | 252 => some blob
  | 253 => some varString
  | 254 => some string
  | 255 => some geometry
  | _ => none

def ColumnType.fromCode (code : UInt8) : PayloadReader ColumnType :=
  match ColumnType.ofCode? code with
  | some type => pure type
  | none => fail s!"Unknown column type {code.toNat}"

/-- The type and the metadata behind a column that is logged as a character string. -/
def getActualStringType (columnType : UInt8) (metadata : UInt16) : UInt8 × UInt16 :=
  if metadata < 256 then (columnType, metadata)
  else
    let byte0 := (metadata >>> 8).toUInt8
    let byte1 := metadata &&& 0xFF
    if byte0 &&& 0x30 ≠ 0x30 then
      (byte0 ||| 0x30, byte1 ||| (((byte0.toUInt16 &&& 0x30) ^^^ 0x30) <<< 4))
    else (if byte0 = 247 ∨ byte0 = 248 then byte0 else columnType, byte1)

/-! ## Strings, bits and large objects -/

def parseString (metadata : UInt16) : PayloadReader String := do
  let length ← if metadata < 256 then readLe 1 else readLe 2
  let bytes ← readExact length
  return fromUtf8Lossy bytes

/-- The bits of a number, the lowest first. -/
def readBitmapBigEndian (bitsNumber : Nat) : PayloadReader (List Bool) := do
  let bytes ← readExact (bitmapWidth bitsNumber)
  return (bytes.reverse.flatMap byteBits).take bitsNumber

def parseBit (metadata : UInt16) : PayloadReader (List Bool) := do
  let length := (metadata >>> 8) * 8 + (metadata &&& 0xFF)
  let bitmap ← readBitmapBigEndian length.toNat
  return bitmap.reverse

def parseBlob (metadata : UInt16) : PayloadReader (List UInt8) := do
  let length ← readUintLe metadata.toNat
  readExact length

/-! ## Dates and times -/

def microsPerSecond : UInt64 := 1000000

/-- The fractional second, with two digits in a byte. -/
def parseFractionalPart (metadata : UInt16) : PayloadReader UInt64 := do
  let length := (metadata + 1) / 2
  if length = 0 then return 0
  let fraction ← readUintBe length.toNat
  return UInt64.ofNat fraction * 100 ^ (3 - length.toUInt32).toNat

def parseYear (_metadata : UInt16) : PayloadReader UInt16 := do
  let byte ← readU8
  return 1900 + byte.toUInt16

def parseDate (_metadata : UInt16) : PayloadReader MySqlValue := do
  let value ← readLe 3
  let day := value % 2 ^ 5
  let month := value / 2 ^ 5 % 2 ^ 4
  let year := value / 2 ^ 9
  return .date (UInt16.ofNat year) (UInt8.ofNat month) (UInt8.ofNat day)

/-- The message about the durations that the client does not read. -/
def negativeTimeMessage : String :=
  "Parsing negative TIME values is not supported in this version"

def parseTime (_metadata : UInt16) : PayloadReader MySqlValue := do
  let value ← readLe 3
  -- The highest of the 24 bits is the sign.
  if 2 ^ 23 ≤ value then fail negativeTimeMessage
  else
    let second := value % 100
    let minute := value / 100 % 100
    let hour : Nat := value / 100 / 100
    return .time hour (UInt8.ofNat minute) (UInt8.ofNat second) 0

def parseTime2 (metadata : UInt16) : PayloadReader MySqlValue := do
  let value ← readBe 3
  let micros ← parseFractionalPart metadata
  if value / 2 ^ 23 % 2 = 0 then fail negativeTimeMessage
  else
    let hour : Nat := value / 2 ^ 12 % 2 ^ 10
    let minute := value / 2 ^ 6 % 2 ^ 6
    let second := value % 2 ^ 6
    return .time hour (UInt8.ofNat minute) (UInt8.ofNat second) micros.toUInt32

def parseDateTime (_metadata : UInt16) : PayloadReader MySqlValue := do
  let value ← readLe 8
  let second := value % 100
  let minute := value / 100 % 100
  let hour := value / 100 / 100 % 100
  let day := value / 100 / 100 / 100 % 100
  let month := value / 100 / 100 / 100 / 100 % 100
  let year := value / 100 / 100 / 100 / 100 / 100
  return .dateTime (UInt16.ofNat year) (UInt8.ofNat month) (UInt8.ofNat day) (UInt8.ofNat hour)
    (UInt8.ofNat minute) (UInt8.ofNat second) 0

def parseDateTime2 (metadata : UInt16) : PayloadReader MySqlValue := do
  let value ← readBe 5
  let micros ← parseFractionalPart metadata
  let yearMonth := value / 2 ^ 22 % 2 ^ 17
  let year := yearMonth / 13
  let month := yearMonth % 13
  let day := value / 2 ^ 17 % 2 ^ 5
  let hour := value / 2 ^ 12 % 2 ^ 5
  let minute := value / 2 ^ 6 % 2 ^ 6
  let second := value % 2 ^ 6
  return .dateTime (UInt16.ofNat year) (UInt8.ofNat month) (UInt8.ofNat day) (UInt8.ofNat hour)
    (UInt8.ofNat minute) (UInt8.ofNat second) micros.toUInt32

def parseTimestamp (_metadata : UInt16) : PayloadReader UInt64 := do
  let seconds ← readLe 4
  return UInt64.ofNat seconds * microsPerSecond

def parseTimestamp2 (metadata : UInt16) : PayloadReader UInt64 := do
  let seconds ← readBe 4
  let micros ← parseFractionalPart metadata
  return UInt64.ofNat seconds * microsPerSecond + micros

/-! ## Decimals -/

def digitsPerInt : UInt8 := 9

/-- The bytes of a group of some digits. -/
def compressedBytes : List UInt8 := [0, 1, 1, 2, 2, 3, 3, 4, 4, 4]

/-- The bytes of a group of digits, by the index of the table. -/
def compressedWidth (digits : UInt8) : PayloadReader UInt8 :=
  match compressedBytes[digits.toNat]? with
  | some width => pure width
  | none => Reader.halt .outOfBounds

/-- The groups of the integral part: the first one that is not zero has no leading zeros. -/
def readIntegralGroups : Nat → Bool → Text → PayloadReader (Bool × Text)
  | 0, started, result => pure (started, result)
  | count + 1, started, result => do
    let number ← readBe 4
    if started then readIntegralGroups count true (result ++ pad 9 number)
    else if 0 < number then readIntegralGroups count true (result ++ Nat.toDigits 10 number)
    else readIntegralGroups count started result

/-- The groups of the fraction. -/
def readFractionGroups : Nat → Text → PayloadReader Text
  | 0, result => pure result
  | count + 1, result => do
    let value ← readBe 4
    readFractionGroups count (result ++ pad 9 value)

/-- The first group of the integral part, which has fewer digits than the others. -/
def readLeadingGroup (size : UInt8) (result : Text) : PayloadReader (Bool × Text) := do
  if 0 < size then
    let number ← readUintBe size.toNat
    let number := number % 2 ^ 32
    if 0 < number then return (true, result ++ Nat.toDigits 10 number) else return (false, result)
  else return (false, result)

/-- The last group of the fraction, which has fewer digits than the others. -/
def readTrailingGroup (size digits : UInt8) (result : Text) : PayloadReader Text := do
  if 0 < size then
    let value ← readUintBe size.toNat
    return result ++ pad digits.toNat (value % 2 ^ 32)
  else return result

/-- The text of a number behind its sign. -/
def readDecimalText (sign : Text) (uncompressedIntegral uncompressedFractional scale : UInt8)
    (integralSize compressedFractional fractionalSize : UInt8) : PayloadReader Text := do
  let (started, result) ← readLeadingGroup integralSize sign
  let (started, result) ← readIntegralGroups uncompressedIntegral.toNat started result
  -- There has to be at least a zero.
  let result := if started then result else result ++ ['0']
  let result := if 0 < scale then result ++ ['.'] else result
  let result ← readFractionGroups uncompressedFractional.toNat result
  readTrailingGroup fractionalSize compressedFractional result

/-- The text of a number from its bytes. -/
def readSignedDecimal (uncompressedIntegral uncompressedFractional scale integralSize
    compressedFractional fractionalSize : UInt8) (value : List UInt8) : PayloadReader String :=
  match value with
  | [] => Reader.halt .outOfBounds
  | first :: others => do
    -- The sign bit is inverted, and so are all the bits of a negative number.
    let negative := first &&& 0x80 == 0
    let flipped := (first ^^^ 0x80) :: others
    let buffer := if negative then flipped.map (· ^^^ 0xFF) else flipped
    let text ← Reader.within buffer (readDecimalText (if negative then ['-'] else [])
      uncompressedIntegral uncompressedFractional scale integralSize compressedFractional
      fractionalSize)
    return String.ofList text

def parseDecimal (metadata : UInt16) : PayloadReader String := do
  let precision := metadata &&& 0xFF
  let scale := (metadata >>> 8).toUInt8
  let integral := (precision - scale.toUInt16).toUInt8
  let uncompressedIntegral := integral / digitsPerInt
  let uncompressedFractional := scale / digitsPerInt
  let compressedIntegral := integral - uncompressedIntegral * digitsPerInt
  let compressedFractional := scale - uncompressedFractional * digitsPerInt
  let integralSize ← compressedWidth compressedIntegral
  let fractionalSize ← compressedWidth compressedFractional
  let length := (uncompressedIntegral <<< 2) + integralSize + (uncompressedFractional <<< 2) +
    fractionalSize
  let value ← readExact length.toNat
  readSignedDecimal uncompressedIntegral uncompressedFractional scale integralSize
    compressedFractional fractionalSize value

/-! ## Cells -/

/-- One cell, by the type code and the metadata of its column. -/
def parseCell (columnType : UInt8) (metadata : UInt16) : PayloadReader MySqlValue := do
  let type ← ColumnType.fromCode columnType
  match type with
  | .tiny => return .tinyInt (← readU8)
  | .short => return .smallInt (UInt16.ofNat (← readLe 2))
  | .int24 => return .mediumInt (UInt32.ofNat (← readLe 3))
  | .long => return .int (UInt32.ofNat (← readLe 4))
  | .longLong => return .bigInt (UInt64.ofNat (← readLe 8))
  | .float => return .float (UInt32.ofNat (← readLe 4))
  | .double => return .double (UInt64.ofNat (← readLe 8))
  | .newDecimal => return .decimal (← parseDecimal metadata)
  | .string | .varChar | .varString => return .string (← parseString metadata)
  | .bit => return .bit (← parseBit metadata)
  | .enum => return .enum (UInt32.ofNat (← readUintLe metadata.toNat))
  | .set => return .set (UInt64.ofNat (← readUintLe metadata.toNat))
  | .tinyBlob | .mediumBlob | .longBlob | .blob | .geometry | .json =>
    return .blob (← parseBlob metadata)
  | .year => return .year (← parseYear metadata)
  | .date => parseDate metadata
  | .time => parseTime metadata
  | .timeStamp => return .timestamp (← parseTimestamp metadata)
  | .dateTime => parseDateTime metadata
  | .time2 => parseTime2 metadata
  | .timeStamp2 => return .timestamp (← parseTimestamp2 metadata)
  | .dateTime2 => parseDateTime2 metadata
  | .decimal => fail "Parsing column type Decimal is not supported"
  | .null => fail "Parsing column type Null is not supported"
  | .newDate => fail "Parsing column type NewDate is not supported"

/-- The cell of a column, whose type may be hidden behind a character string. -/
def readCell (columnType : UInt8) (metadata : UInt16) : PayloadReader MySqlValue := do
  let type ← ColumnType.fromCode columnType
  if type = .string then
    let (actualType, actualMetadata) := getActualStringType columnType metadata
    parseCell actualType actualMetadata
  else parseCell columnType metadata

end BinlogCdc.MysqlCdc
