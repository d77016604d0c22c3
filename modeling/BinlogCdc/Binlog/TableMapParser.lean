import BinlogCdc.Binlog.FieldReader
import BinlogCdc.Stream.TableSchema

/-!
# Table maps of the binlog

The parser of the event that announces a table: its names, the types of its columns with the metadata
that each type has, the bitmap of the columns that may be null, and optional metadata in fields of a
type, a length and a content. Of two fields of one type the later one counts.
-/

namespace BinlogCdc.MysqlCdc

open BinlogCdc.Core

/-! ## Optional metadata -/

/-- The character sets of columns: the most frequent one, and the columns that have another. -/
structure DefaultCharset where
  defaultCharsetCollation : UInt32
  charsetCollations : List (UInt32 × UInt32)
  deriving DecidableEq, Repr

/-- All the optional metadata of a table map. -/
structure TableMetadata extends BinlogCdc.TableMetadata where
  signedness : Option (List Bool)
  defaultCharset : Option DefaultCharset
  columnCharsets : Option (List UInt32)
  geometryTypes : Option (List UInt32)
  primaryKeysWithPrefix : Option (List (UInt32 × UInt32))
  enumAndSetDefaultCharset : Option DefaultCharset
  enumAndSetColumnCharsets : Option (List UInt32)
  columnVisibility : Option (List Bool)
  deriving DecidableEq, Repr

inductive MetadataType
  | signedness | defaultCharset | columnCharset | columnName | setStrValue | enumStrValue
  | geometryType | simplePrimaryKey | primaryKeyWithPrefix | enumAndSetDefaultCharset
  | enumAndSetColumnCharset | columnVisibility
  deriving DecidableEq, Repr

def MetadataType.ofCode? (code : UInt8) : Option MetadataType :=
  match code.toNat with
  | 1 => some signedness
  | 2 => some defaultCharset
  | 3 => some columnCharset
  | 4 => some columnName
  | 5 => some setStrValue
  | 6 => some enumStrValue
  | 7 => some geometryType
  | 8 => some simplePrimaryKey
  | 9 => some primaryKeyWithPrefix
  | 10 => some enumAndSetDefaultCharset
  | 11 => some enumAndSetColumnCharset
  | 12 => some columnVisibility
  | _ => none

def MetadataType.fromCode (code : UInt8) : PayloadReader MetadataType :=
  match MetadataType.ofCode? code with
  | some type => pure type
  | none => fail s!"Table metadata type {code.toNat} is not supported"

/-- What one field of the optional metadata says. -/
inductive MetadataField
  | signedness (bits : List Bool)
  | defaultCharset (charset : DefaultCharset)
  | columnCharset (collations : List UInt32)
  | columnName (names : List String)
  | setStrValue (members : List (List String))
  | enumStrValue (labels : List (List String))
  | geometryType (types : List UInt32)
  | simplePrimaryKey (columns : List UInt32)
  | primaryKeyWithPrefix (columns : List (UInt32 × UInt32))
  | enumAndSetDefaultCharset (charset : DefaultCharset)
  | enumAndSetColumnCharset (collations : List UInt32)
  | columnVisibility (bits : List Bool)
  deriving DecidableEq, Repr

/-- The metadata before the first field. -/
def TableMetadata.empty : TableMetadata where
  columnNames := none
  simplePrimaryKeys := none
  enumStringValues := none
  setStringValues := none
  signedness := none
  defaultCharset := none
  columnCharsets := none
  geometryTypes := none
  primaryKeysWithPrefix := none
  enumAndSetDefaultCharset := none
  enumAndSetColumnCharsets := none
  columnVisibility := none

/-- A field replaces what an earlier field of its type said. -/
def TableMetadata.set (metadata : TableMetadata) : MetadataField → TableMetadata
  | .signedness bits => { metadata with signedness := some bits }
  | .defaultCharset charset => { metadata with defaultCharset := some charset }
  | .columnCharset collations => { metadata with columnCharsets := some collations }
  | .columnName names => { metadata with columnNames := some names }
  | .setStrValue members => { metadata with setStringValues := some members }
  | .enumStrValue labels => { metadata with enumStringValues := some labels }
  | .geometryType types => { metadata with geometryTypes := some types }
  | .simplePrimaryKey columns => { metadata with simplePrimaryKeys := some columns }
  | .primaryKeyWithPrefix columns => { metadata with primaryKeysWithPrefix := some columns }
  | .enumAndSetDefaultCharset charset => { metadata with enumAndSetDefaultCharset := some charset }
  | .enumAndSetColumnCharset collations =>
    { metadata with enumAndSetColumnCharsets := some collations }
  | .columnVisibility bits => { metadata with columnVisibility := some bits }

/-- A number, of which the low 32 bits are kept. -/
def parseInt : PayloadReader UInt32 := do
  let value ← readLenEncNum
  return UInt32.ofNat value

def parseIntArray : PayloadReader (List UInt32) := Reader.whileLeft parseInt

def parseStringArray : PayloadReader (List String) := Reader.whileLeft readLenEncStr

def parseIntPair : PayloadReader (UInt32 × UInt32) := do
  let key ← parseInt
  let value ← parseInt
  return (key, value)

def parseIntMap : PayloadReader (List (UInt32 × UInt32)) := Reader.whileLeft parseIntPair

/-- The labels of one column. -/
def parseLabels : PayloadReader (List String) := do
  let length ← readLenEncNum
  Reader.repeated readLenEncStr length

def parseTypeValues : PayloadReader (List (List String)) := Reader.whileLeft parseLabels

def parseDefaultCharset : PayloadReader DefaultCharset := do
  let defaultCollation ← parseInt
  let charsetCollations ← parseIntMap
  return ⟨defaultCollation, charsetCollations⟩

/-- The types that the signedness counts. -/
def ColumnType.isNumeric : ColumnType → Bool
  | tiny | short | int24 | long | longLong | float | double | newDecimal => true
  | _ => false

/-- The number of numeric columns; a code that is no type is an error. -/
def getNumericColumnCount : List UInt8 → PayloadReader Nat
  | [] => pure 0
  | code :: codes => do
    let type ← ColumnType.fromCode code
    let count ← getNumericColumnCount codes
    return (if type.isNumeric then 1 else 0) + count

/-- The content of a field of the type. -/
def parseMetadataContent (columnTypes : List UInt8) : MetadataType → PayloadReader MetadataField
  | .signedness => do
    let count ← getNumericColumnCount columnTypes
    return .signedness (← readBitmapReverted count)
  | .defaultCharset => return .defaultCharset (← parseDefaultCharset)
  | .columnCharset => return .columnCharset (← parseIntArray)
  | .columnName => return .columnName (← parseStringArray)
  | .setStrValue => return .setStrValue (← parseTypeValues)
  | .enumStrValue => return .enumStrValue (← parseTypeValues)
  | .geometryType => return .geometryType (← parseIntArray)
  | .simplePrimaryKey => return .simplePrimaryKey (← parseIntArray)
  | .primaryKeyWithPrefix => return .primaryKeyWithPrefix (← parseIntMap)
  | .enumAndSetDefaultCharset => return .enumAndSetDefaultCharset (← parseDefaultCharset)
  | .enumAndSetColumnCharset => return .enumAndSetColumnCharset (← parseIntArray)
  | .columnVisibility => return .columnVisibility (← readBitmapReverted columnTypes.length)

/-- One field, whose content is read with a cursor of its own. -/
def parseMetadataField (columnTypes : List UInt8) : PayloadReader MetadataField := do
  let code ← readU8
  let type ← MetadataType.fromCode code
  let length ← readLenEncNum
  let content ← readExact length
  Reader.within content (parseMetadataContent columnTypes type)

def parseTableMetadata (columnTypes : List UInt8) : PayloadReader TableMetadata := do
  let fields ← Reader.whileLeft (parseMetadataField columnTypes)
  return fields.foldl TableMetadata.set .empty

/-! ## The event -/

structure TableMapEvent extends SourceTableMap where
  nullBitmap : List Bool
  tableMetadata : Option TableMetadata
  deriving DecidableEq, Repr

/-- The table map as the schema resolver sees it. -/
def TableMapEvent.toMysqlCdcTableMapEvent (event : TableMapEvent) : MysqlCdcTableMapEvent where
  toSourceTableMap := event.toSourceTableMap
  tableMetadata := event.tableMetadata.map (·.toTableMetadata)

/-- The metadata of one column. -/
def parseColumnMetadata (code : UInt8) : PayloadReader UInt16 := do
  let type ← ColumnType.fromCode code
  match type with
  | .geometry | .json | .tinyBlob | .mediumBlob | .longBlob | .blob | .float | .double | .timeStamp2
  | .dateTime2 | .time2 => return UInt16.ofNat (← readLe 1)
  | .bit | .varChar | .varString | .newDecimal => return UInt16.ofNat (← readLe 2)
  | .enum | .set | .string => return UInt16.ofNat (← readBe 2)
  | _ => return 0

def parseMetadata (columnTypes : List UInt8) : PayloadReader (List UInt16) :=
  Reader.forItems parseColumnMetadata columnTypes

/-- A name with its length before it and a zero behind it. -/
def readName : PayloadReader String := do
  let length ← readU8
  let name ← readString length.toNat
  seekCurrent 1
  return name

/-- What every table map has. -/
def parseTable : PayloadReader (SourceTableMap × List Bool) := do
  let tableId ← readLe 6
  -- Two bytes are reserved.
  seekCurrent 2
  let databaseName ← readName
  let tableName ← readName
  let columnsNumber ← readLenEncNum
  let columnTypes ← readExact columnsNumber
  let _metadataLength ← readLenEncNum
  let columnMetadata ← parseMetadata columnTypes
  let nullBitmap ← readBitmapLittleEndian columnsNumber
  return ({ tableId, databaseName, tableName, columnTypes, columnMetadata }, nullBitmap)

/-- The optional metadata, where bytes are left. -/
def parseOptionalMetadata (columnTypes : List UInt8) : PayloadReader (Option TableMetadata) := do
  let cursor ← Reader.cursor
  if cursor.offset < cursor.bytes.length then
    let metadata ← parseTableMetadata columnTypes
    return some metadata
  else return none

def parseTableMapEvent : PayloadReader TableMapEvent := do
  let (table, nullBitmap) ← parseTable
  let tableMetadata ← parseOptionalMetadata table.columnTypes
  return { toSourceTableMap := table, nullBitmap, tableMetadata }

end BinlogCdc.MysqlCdc
