import BinlogCdc.Core.Result
import BinlogCdc.Schema.Canonical
import BinlogCdc.Stream.CellValue
import BinlogCdc.Sync.ColumnLabels

/-!
# The schema of a table map

A table map may carry metadata: the names of its columns, its simple primary key, and the labels of
its enumerations and sets. What it does not carry comes from the inventory of the target, and where
the metadata has names and a primary key, a failure to read the inventory is silent.
-/

namespace BinlogCdc

/-! ## Resolved schemas -/

/-- Columns with their labels; of two entries of one column the first counts. -/
abbrev ColumnLabels := List (String × List String)

/-- The entries of a map that is filled from the left; a later entry replaces an earlier one. -/
def collectLabels (entries : List (String × List String)) : ColumnLabels := entries.reverse

structure ResolvedTableSchema where
  columns : List String
  primaryKey : List String
  generatedColumns : List String
  signedColumns : List String
  enumColumns : ColumnLabels
  setColumns : ColumnLabels
deriving DecidableEq, Repr

/-- The optional metadata of a table map. -/
structure TableMetadata where
  columnNames : Option (List String)
  simplePrimaryKeys : Option (List UInt32)
  enumStringValues : Option (List (List String))
  setStringValues : Option (List (List String))
deriving DecidableEq, Repr

structure MysqlCdcTableMapEvent extends SourceTableMap where
  tableMetadata : Option TableMetadata
deriving DecidableEq, Repr

/-- The schema of a table by schema name, table name and number of columns. -/
abbrev TableSchemaResolver := String → String → Nat → Except ApplyBinlogError ResolvedTableSchema

/-! ## From the inventory -/

def isSignedIntegerColumn (dataType columnType : String) : Bool :=
  ["tinyint", "smallint", "mediumint", "int", "bigint"].contains dataType &&
    !Text.contains "unsigned".toList (Text.toAsciiLowercase columnType.toList)

def generatedColumnNames (table : TableInventory) : List String :=
  (table.columns.filter fun column => column.generated.isSome).map (·.name)

def signedColumnNames (table : TableInventory) : List String :=
  (table.columns.filter fun column =>
    isSignedIntegerColumn column.dataType column.columnType).map (·.name)

def enumColumnValues (table : TableInventory) : ColumnLabels :=
  collectLabels (table.columns.filterMap fun column =>
    (parseEnumColumnType column.columnType).map (column.name, ·))

def setColumnValues (table : TableInventory) : ColumnLabels :=
  collectLabels (table.columns.filterMap fun column =>
    (parseSetColumnType column.columnType).map (column.name, ·))

def buildInventoryTableSchema (table : TableInventory) : Except ApplyBinlogError ResolvedTableSchema :=
  .ok { columns := table.columns.map (·.name)
        primaryKey := table.primaryKey
        generatedColumns := generatedColumnNames table
        signedColumns := signedColumnNames table
        enumColumns := enumColumnValues table
        setColumns := setColumnValues table }

/-! ## From the metadata -/

def isEnumColumn (columnType : UInt8) (metadata : UInt16) : Bool :=
  columnType == 247 || columnType == 254 && metadata >>> 8 == 247

def isSetColumn (columnType : UInt8) (metadata : UInt16) : Bool :=
  columnType == 248 || columnType == 254 && metadata >>> 8 == 248

/-- The places of the columns of a kind. -/
def columnIndexes (isKind : UInt8 → UInt16 → Bool) (tableMap : MysqlCdcTableMapEvent) : List Nat :=
  (tableMap.columnTypes.zip tableMap.columnMetadata).zipIdx.filterMap fun column =>
    if isKind column.1.1 column.1.2 then some column.2 else none

/-- The labels of the columns of a kind, one list for each of them. -/
def labelsFromMetadata (kind : String) (isKind : UInt8 → UInt16 → Bool)
    (tableMap : MysqlCdcTableMapEvent) (valueSets : Option (List (List String)))
    (columns : List String) : Except ApplyBinlogError ColumnLabels :=
  match valueSets with
  | none => .ok []
  | some valueSets => do
    let indexes := columnIndexes isKind tableMap
    if indexes.length ≠ valueSets.length then
      throw (mappingError (s!"table map {kind} metadata has {indexes.length} {kind} columns but " ++
        s!"{valueSets.length} {kind} value sets"))
    let entries ← (indexes.zip valueSets).mapM fun (index, values) =>
      match columns[index]? with
      | some column => pure (column, values)
      | none => throw (mappingError s!"{kind} column index {index} is out of range")
    return collectLabels entries

def enumColumnsFromMetadata (tableMap : MysqlCdcTableMapEvent) (metadata : TableMetadata)
    (columns : List String) : Except ApplyBinlogError ColumnLabels :=
  labelsFromMetadata "enum" isEnumColumn tableMap metadata.enumStringValues columns

def setColumnsFromMetadata (tableMap : MysqlCdcTableMapEvent) (metadata : TableMetadata)
    (columns : List String) : Except ApplyBinlogError ColumnLabels :=
  labelsFromMetadata "SET" isSetColumn tableMap metadata.setStringValues columns

def primaryKeyColumn (index : UInt32) (columns : List String) : Except ApplyBinlogError String :=
  match columns[index.toNat]? with
  | some column => .ok column
  | none => .error (mappingError s!"primary key column index {index.toNat} is out of range")

def primaryKeyFromMetadata (metadata : TableMetadata) (columns : List String) :
    Except ApplyBinlogError (Option (List String)) :=
  match metadata.simplePrimaryKeys with
  | none => .ok none
  | some indexes => (indexes.mapM (primaryKeyColumn · columns)).map some

def validateColumnCount (schema table : String) (expected : Nat) (columns : List String) :
    Except ApplyBinlogError Unit :=
  if columns.length = expected then .ok ()
  else
    .error (mappingError (s!"schema for {schema}.{table} has {columns.length} columns but row event " ++
      s!"table map has {expected}"))

/-! ## The resolution -/

def validatedMetadataColumns (tableMap : MysqlCdcTableMapEvent) (metadata : TableMetadata)
    (columnCount : Nat) : Except ApplyBinlogError (Option (List String)) :=
  match metadata.columnNames with
  | none => .ok none
  | some columns => do
    validateColumnCount tableMap.databaseName tableMap.tableName columnCount columns
    return some columns

/-- Where the metadata has a primary key, a failure leaves the fallback out. -/
def fallbackSchemaForMetadata (metadata : TableMetadata)
    (fallback : Except ApplyBinlogError ResolvedTableSchema) :
    Except ApplyBinlogError (Option ResolvedTableSchema) :=
  if metadata.simplePrimaryKeys.isSome then .ok fallback.toOption
  else fallback.map some

/-- The fallback exists when the metadata has no primary key. -/
def metadataPrimaryKey (metadata : TableMetadata) (columns : List String)
    (fallback : Option ResolvedTableSchema) : Except ApplyBinlogError (List String) := do
  match ← primaryKeyFromMetadata metadata columns with
  | some primaryKey => return primaryKey
  | none => return (fallback.map (·.primaryKey)).getD []

/-- Labels of the metadata, or those of the fallback if there are none. -/
def labelsOrFallback (metadataValues : ColumnLabels) (fallback : Option ColumnLabels) : ColumnLabels :=
  if metadataValues.isEmpty then fallback.getD [] else metadataValues

def metadataEnumColumns (tableMap : MysqlCdcTableMapEvent) (metadata : TableMetadata)
    (columns : List String) (fallback : Option ResolvedTableSchema) :
    Except ApplyBinlogError ColumnLabels :=
  (enumColumnsFromMetadata tableMap metadata columns).map
    (labelsOrFallback · (fallback.map (·.enumColumns)))

def metadataSetColumns (tableMap : MysqlCdcTableMapEvent) (metadata : TableMetadata)
    (columns : List String) (fallback : Option ResolvedTableSchema) :
    Except ApplyBinlogError ColumnLabels :=
  (setColumnsFromMetadata tableMap metadata columns).map
    (labelsOrFallback · (fallback.map (·.setColumns)))

def resolvedTableSchema (columns primaryKey : List String) (enumColumns setColumns : ColumnLabels)
    (fallback : Option ResolvedTableSchema) : ResolvedTableSchema where
  columns := columns
  primaryKey := primaryKey
  generatedColumns := (fallback.map (·.generatedColumns)).getD []
  signedColumns := (fallback.map (·.signedColumns)).getD []
  enumColumns := enumColumns
  setColumns := setColumns

def resolveTableSchema (tableMap : MysqlCdcTableMapEvent) (schemaResolver : TableSchemaResolver) :
    Except ApplyBinlogError ResolvedTableSchema :=
  let columnCount := tableMap.columnTypes.length
  let fallback := schemaResolver tableMap.databaseName tableMap.tableName columnCount
  match tableMap.tableMetadata with
  | none => fallback
  | some metadata => do
    match ← validatedMetadataColumns tableMap metadata columnCount with
    | none => fallback
    | some columns =>
      let fallbackSchema ← fallbackSchemaForMetadata metadata fallback
      let primaryKey ← metadataPrimaryKey metadata columns fallbackSchema
      let enumColumns ← metadataEnumColumns tableMap metadata columns fallbackSchema
      let setColumns ← metadataSetColumns tableMap metadata columns fallbackSchema
      return resolvedTableSchema columns primaryKey enumColumns setColumns fallbackSchema

def columnCountMatches (expected : Nat) (columns : List String) : Bool := columns.length == expected

/-- The table of the rows that follow a table map. -/
def ResolvedTableSchema.rowTableMap (schema : ResolvedTableSchema) (tableMap : MysqlCdcTableMapEvent) :
    RowTableMap where
  tableId := tableMap.tableId
  schema := tableMap.databaseName
  table := tableMap.tableName
  columns := schema.columns
  primaryKey := schema.primaryKey
  generatedColumns := schema.generatedColumns
  signedColumns := schema.signedColumns
  enumColumns := schema.enumColumns
  setColumns := schema.setColumns

/-- A table map whose columns are not those of the resolved schema is skipped. -/
def mapTableMapEvent (tableMap : MysqlCdcTableMapEvent) (schemaResolver : TableSchemaResolver) :
    Except ApplyBinlogError (Option RowTableMap) := do
  let schema ← resolveTableSchema tableMap schemaResolver
  if columnCountMatches tableMap.columnTypes.length schema.columns then
    return some (schema.rowTableMap tableMap)
  else return none

end BinlogCdc
