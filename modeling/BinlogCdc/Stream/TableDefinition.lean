import BinlogCdc.Stream.StoredValue
import BinlogCdc.Stream.TableSchema

/-!
# Tables of the source and exact rows

A table of the source with its columns and its primary key, the inventories and the table maps that
describe it, and its rows. A row is mapped exactly if the schema is that of the table and every column
has its stored value.
-/

namespace BinlogCdc

/-! ## Tables -/

structure ColumnDefinition where
  name : String
  type : SourceColumnType
  generated : Bool
deriving DecidableEq, Repr

def ColumnDefinition.isSigned (column : ColumnDefinition) : Bool := column.type.isSignedInteger

/-- A table with columns of different names. -/
structure TableDefinition where
  columns : List ColumnDefinition
  primaryKey : List String
  nodup : (columns.map (·.name)).Nodup

namespace TableDefinition

variable (definition : TableDefinition)

def columnNames : List String := definition.columns.map (·.name)

def generatedColumns : List String :=
  (definition.columns.filter (·.generated)).map (·.name)

def signedColumns : List String := (definition.columns.filter (·.isSigned)).map (·.name)

/-- The labels of the enumerations. -/
def enumColumns : List (String × List String) :=
  definition.columns.filterMap fun column => column.type.labels.map (column.name, ·)

def setColumns : List (String × List String) :=
  definition.columns.filterMap fun column => column.type.members.map (column.name, ·)

/-- The schema that says what the table is. -/
def schema : ResolvedTableSchema where
  columns := definition.columnNames
  primaryKey := definition.primaryKey
  generatedColumns := definition.generatedColumns
  signedColumns := definition.signedColumns
  enumColumns := collectLabels definition.enumColumns
  setColumns := collectLabels definition.setColumns

end TableDefinition

/-! ## What the server says of a table -/

/-- A character of a label as the server prints it in the type of a column. -/
def serverLabelCharacter (c : Char) : List Char :=
  if c = Char.ofNat 0 then ['\\', '0']
  else if c = '\n' then ['\\', 'n']
  else if c = '\r' then ['\\', 'r']
  else doubleQuotesAndBackslashes c

/-- The character that is read from the printed one: an escape gives the character behind the
backslash. -/
def readLabelCharacter (c : Char) : Char :=
  if c = Char.ofNat 0 then '0' else if c = '\n' then 'n' else if c = '\r' then 'r' else c

def readLabel (label : String) : String := String.ofList (label.toList.map readLabelCharacter)

def IntegerWidth.dataType : IntegerWidth → String
  | .tiny => "tinyint"
  | .small => "smallint"
  | .medium => "mediumint"
  | .int => "int"
  | .big => "bigint"

/-- The texts of a type: its name, and the whole type with its parameters. -/
def PrintsType (type : SourceColumnType) (dataType columnType : String) : Prop :=
  match type with
  | .integer width unsigned =>
    dataType = width.dataType ∧ width.dataType.toList.isPrefixOf columnType.toList = true ∧
      Text.contains "unsigned".toList (Text.toAsciiLowercase columnType.toList) = unsigned
  | .enum labels =>
    dataType = "enum" ∧ columnType = labelColumnType "enum(" serverLabelCharacter labels
  | .set members =>
    dataType = "set" ∧ columnType = labelColumnType "set(" serverLabelCharacter members
  | _ => (∀ width : IntegerWidth, dataType ≠ width.dataType) ∧
      "enum(".toList.isPrefixOf columnType.toList = false

/-- A column as the inventory lists it. -/
def DescribesColumn (column : ColumnDefinition) (found : ColumnInventory) : Prop :=
  found.name = column.name ∧ found.generated.isSome = column.generated ∧
    PrintsType column.type found.dataType found.columnType

/-- The inventory of the table. -/
structure Describes (definition : TableDefinition) (table : TableInventory) : Prop where
  primaryKey : table.primaryKey = definition.primaryKey
  columns : List.Forall₂ DescribesColumn definition.columns table.columns

/-- Every part of the metadata that is there is right. -/
structure TableMetadata.Correct (definition : TableDefinition) (metadata : TableMetadata) : Prop where
  columnNames : ∀ names ∈ metadata.columnNames, names = definition.columnNames
  simplePrimaryKeys : ∀ indexes ∈ metadata.simplePrimaryKeys,
    indexes.map (fun index => definition.columnNames[index.toNat]?) = definition.primaryKey.map some
  enumStringValues : ∀ values ∈ metadata.enumStringValues, values = definition.enumColumns.map (·.2)
  setStringValues : ∀ values ∈ metadata.setStringValues, values = definition.setColumns.map (·.2)

/-- A table map of the table. -/
structure Announces (definition : TableDefinition) (tableMap : MysqlCdcTableMapEvent) : Prop where
  count : tableMap.columnTypes.length = definition.columns.length
  kinds : List.Forall₂ (fun (column : ColumnDefinition) (code : UInt8 × UInt16) =>
    isEnumColumn code.1 code.2 = column.type.labels.isSome ∧
      isSetColumn code.1 code.2 = column.type.members.isSome) definition.columns
        (tableMap.columnTypes.zip tableMap.columnMetadata)
  metadata : ∀ metadata ∈ tableMap.tableMetadata, metadata.Correct definition

/-- The resolver answers with the inventory of the table or with an error. -/
def ResolvesAs (definition : TableDefinition) (answer : Except ApplyBinlogError ResolvedTableSchema) :
    Prop :=
  ∀ schema, answer = .ok schema →
    ∃ table, Describes definition table ∧ buildInventoryTableSchema table = .ok schema

/-! ## Rows -/

/-- A column of a row with its value. -/
structure StoredField where
  column : ColumnDefinition
  value : Option (StoredValue column.type)

namespace StoredField

def cell (field : StoredField) : Option MySqlValue := field.value.map StoredValue.cell

/-- The target value is that of the field. -/
def IsStored (field : StoredField) (target : TargetValue) : Prop :=
  match field.value with
  | none => target = .null
  | some value => value.IsValue target

end StoredField

/-- A row of the table has one value for each column. -/
def IsRow (definition : TableDefinition) (row : List StoredField) : Prop :=
  row.map (·.column) = definition.columns

/-- The cells of the row. -/
def rowData (row : List StoredField) : RowData where
  cells := row.map StoredField.cell

/-- The schema and the image are those of the table and its row. -/
structure Exact (definition : TableDefinition) (row : List StoredField) (schema : ResolvedTableSchema)
    (image : RowImage) : Prop where
  primaryKey : schema.primaryKey = definition.primaryKey
  generatedColumns : schema.generatedColumns = definition.generatedColumns
  signedColumns : schema.signedColumns = definition.signedColumns
  values : List.Forall₂ (fun (field : StoredField) (entry : String × TargetValue) =>
    entry.1 = field.column.name ∧ field.IsStored entry.2) row image

/-! ## When rows are exact -/

/-- The metadata of the table map has names and labels. -/
def announcesLabels (tableMap : MysqlCdcTableMapEvent) : Bool :=
  match tableMap.tableMetadata with
  | some { columnNames := some _, enumStringValues := some (_ :: _), .. } => true
  | _ => false

/-- The server prints the label without an escape that is read as another character. -/
def PlainLabel (label : String) : Prop :=
  ∀ c ∈ label.toList, c ≠ Char.ofNat 0 ∧ c ≠ '\n' ∧ c ≠ '\r'

/-- What has to be known of a field, and of its value. -/
def StoredField.Known (answered announced : Bool) (field : StoredField) : Prop :=
  ∀ value ∈ field.value, value.Survives ∧
    (field.column.type.labels.isSome = true → answered = true ∨ announced = true) ∧
    ∀ label ∈ value.label?, announced = true ∨ PlainLabel label

/-- What is known of the table, so that a row is mapped exactly: the resolver answered, and the table
map announces labels. -/
structure Known (definition : TableDefinition) (row : List StoredField) (answered announced : Bool) :
    Prop where
  /-- Only the inventory tells signed and generated columns. -/
  flags : answered = true ∨ definition.generatedColumns = [] ∧ definition.signedColumns = []
  fields : ∀ field ∈ row, field.Known answered announced

end BinlogCdc
