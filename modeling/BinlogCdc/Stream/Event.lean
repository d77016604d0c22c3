import BinlogCdc.Sql.Token
import BinlogCdc.Target.Database

/-!
# Source events and the decisions taken about them

The binlog events the stream reads, the state it carries from event to event, and the
pure decisions of the event handlers: coordinates, the schema filter, the query
precheck, the row image check and the mapping of row events to target row changes.
Value conversion, statement building and schema lookup are parameters of the mapping.
-/

namespace BinlogCdc

/-! ## Events -/

/-- A decoded cell of a source row. Floating point values are bit patterns. -/
inductive MySqlValue where
  /-- An 8-bit integer. -/
  | tinyInt (value : UInt8)
  /-- A 16-bit integer. -/
  | smallInt (value : UInt16)
  /-- A 24-bit integer. -/
  | mediumInt (value : UInt32)
  /-- A 32-bit integer. -/
  | int (value : UInt32)
  /-- A 64-bit integer. -/
  | bigInt (value : UInt64)
  /-- A single precision number. -/
  | float (bits : UInt32)
  /-- A double precision number. -/
  | double (bits : UInt64)
  /-- A decimal number in text form. -/
  | decimal (value : String)
  /-- A character string. -/
  | string (value : String)
  /-- A bit field. -/
  | bit (value : List Bool)
  /-- An index into an enumeration. -/
  | enum (value : UInt32)
  /-- A bit set of enumeration members. -/
  | set (value : UInt64)
  /-- A byte string. -/
  | blob (value : List UInt8)
  /-- A year. -/
  | year (value : UInt16)
  /-- A date. -/
  | date (year : UInt16) (month day : UInt8)
  /-- A signed time of day or duration. -/
  | time (hour : Int) (minute second : UInt8) (micros : UInt32)
  /-- A date with a time of day. -/
  | dateTime (year : UInt16) (month day hour minute second : UInt8) (micros : UInt32)
  /-- Microseconds since the epoch. -/
  | timestamp (micros : UInt64)
  deriving DecidableEq, Repr

/-- The cells of one row image. -/
structure RowData where
  /-- One cell for each column; an absent value is null. -/
  cells : List (Option MySqlValue)
  deriving DecidableEq, Repr

/-- A row event that inserts or deletes rows. -/
structure RowsEvent where
  /-- The table map the rows refer to. -/
  tableId : Nat
  /-- The columns present in the row images. -/
  columnsPresent : List Bool
  /-- The row images. -/
  rows : List RowData
  deriving DecidableEq, Repr

/-- A row event that updates rows. -/
structure UpdateRowsEvent where
  /-- The table map the rows refer to. -/
  tableId : Nat
  /-- The columns present before the update. -/
  columnsBeforeUpdate : List Bool
  /-- The columns present after the update. -/
  columnsAfterUpdate : List Bool
  /-- The row images before and after the update. -/
  rows : List (RowData × RowData)
  deriving DecidableEq, Repr

/-- A table map announces the table of following row events. -/
structure SourceTableMap where
  /-- The id the row events refer to. -/
  tableId : Nat
  /-- The schema of the table. -/
  databaseName : String
  /-- The table. -/
  tableName : String
  /-- The binlog column types. -/
  columnTypes : List UInt8
  /-- The binlog column metadata. -/
  columnMetadata : List UInt16
  deriving DecidableEq, Repr

/-- A statement event. -/
structure QueryEvent where
  /-- The encoded session state of the statement. -/
  statusVariables : List UInt8
  /-- The default database. -/
  databaseName : String
  /-- The statement text. -/
  sqlStatement : String
  deriving DecidableEq, Repr

/-- The binlog events. -/
inductive BinlogEvent where
  /-- An event the reader does not know. -/
  | unknown
  /-- Deleted rows. -/
  | deleteRows (rows : RowsEvent)
  /-- Updated rows. -/
  | updateRows (rows : UpdateRowsEvent)
  /-- Inserted rows. -/
  | writeRows (rows : RowsEvent)
  /-- The end of a transaction. -/
  | xid (xid : Nat)
  /-- An integer session variable for the next statement. -/
  | intVar (intvarType : Nat) (value : Nat)
  /-- A user variable for the next statement. -/
  | userVar (name : String)
  /-- A statement. -/
  | query (query : QueryEvent)
  /-- A table map. -/
  | tableMap (tableMap : SourceTableMap)
  /-- The change to another binlog file. -/
  | rotate (binlogFilename : String) (binlogPosition : Nat)
  /-- The statement behind the following row events. -/
  | rowsQuery
  /-- A keepalive. -/
  | heartbeat
  /-- The binlog format. -/
  | formatDescription
  /-- A MySQL transaction identifier. -/
  | mySqlGtid
  /-- The MySQL transaction identifiers before a file. -/
  | mySqlPrevGtids
  /-- A MariaDB transaction identifier. -/
  | mariaDbGtid
  /-- The MariaDB transaction identifiers before a file. -/
  | mariaDbGtidList
  deriving DecidableEq, Repr

/-- The header of a binlog event. -/
structure EventHeader where
  /-- The server that logged the event. -/
  serverId : Nat
  /-- The length of the event. -/
  eventLength : Nat
  /-- The position after the event, zero for artificial events. -/
  nextEventPosition : Nat
  deriving DecidableEq, Repr

/-- An event as the reader delivers it. -/
structure SourceStreamEvent where
  /-- The event header. -/
  header : EventHeader
  /-- The event. -/
  event : BinlogEvent
  /-- The position where the reader stood before the event. -/
  sourcePosition : Nat
  deriving DecidableEq, Repr

/-- The name of an event in checkpoints. -/
def eventName : BinlogEvent → String
  | .unknown => "UnknownEvent"
  | .deleteRows _ => "DeleteRowsEvent"
  | .updateRows _ => "UpdateRowsEvent"
  | .writeRows _ => "WriteRowsEvent"
  | .xid _ => "XidEvent"
  | .intVar _ _ => "IntVarEvent"
  | .userVar _ => "UserVarEvent"
  | .query _ => "QueryEvent"
  | .tableMap _ => "TableMapEvent"
  | .rotate _ _ => "RotateEvent"
  | .rowsQuery => "RowsQueryEvent"
  | .heartbeat => "HeartbeatEvent"
  | .formatDescription => "FormatDescriptionEvent"
  | .mySqlGtid => "MySqlGtidEvent"
  | .mySqlPrevGtids => "MySqlPrevGtidsEvent"
  | .mariaDbGtid => "MariaDbGtidEvent"
  | .mariaDbGtidList => "MariaDbGtidListEvent"

/-- What became of an event. -/
inductive EventPolicy where
  /-- Nothing to do. -/
  | ignore
  /-- An annotation of following events. -/
  | ignoreAnnotationEvent
  /-- A table map was recorded. -/
  | applyTableMap
  /-- Row changes were applied. -/
  | applyRows
  /-- A source transaction or statement is complete. -/
  | commitTransaction
  deriving DecidableEq, Repr

/-- The result of handling an event. -/
structure StructuredEventOutcome where
  /-- What became of the event. -/
  policy : EventPolicy
  /-- Where the stream resumes after the event, if it may. -/
  resumeCoordinate : Option BinlogCoordinate
  deriving DecidableEq, Repr

/-- A row event or statement cannot be mapped. -/
def mappingError (message : String) : ApplyBinlogError := .statement message

/-! ## Coordinates -/

/-- The event is a row event. -/
def BinlogEvent.isRowEvent : BinlogEvent → Bool
  | .writeRows _ => true
  | .updateRows _ => true
  | .deleteRows _ => true
  | _ => false

/-- Where the stream may resume after an event. -/
def resumeCoordinate (currentFile : String) (header : EventHeader) (event : BinlogEvent) :
    Option BinlogCoordinate :=
  match event with
  | .rotate binlogFilename binlogPosition => some ⟨binlogFilename, binlogPosition⟩
  | .xid _ =>
    if 0 < header.nextEventPosition then some ⟨currentFile, header.nextEventPosition⟩ else none
  | .query _ =>
    if 0 < header.nextEventPosition then some ⟨currentFile, header.nextEventPosition⟩ else none
  | _ => none

/-- The coordinate an event is reported at. -/
def eventCoordinate (currentFile : String) (header : EventHeader) (event : BinlogEvent)
    (currentEventPosition : Option Nat) : BinlogCoordinate :=
  let resume := (resumeCoordinate currentFile header event).getD
    ⟨currentFile, header.nextEventPosition⟩
  if event.isRowEvent then
    match currentEventPosition with
    | some position => ⟨currentFile, position⟩
    | none =>
      if header.eventLength < header.nextEventPosition then
        ⟨currentFile, header.nextEventPosition - header.eventLength⟩
      else resume
  else resume

/-! ## The state carried between events -/

/-- An integer session variable waiting for its statement. -/
structure PendingIntVar where
  /-- The kind of the variable. -/
  intvarType : Nat
  /-- The value. -/
  value : Nat
  deriving DecidableEq, Repr

/-- The state the event handlers carry from event to event. -/
structure StructuredEventState where
  /-- The source schema to replicate; without one every schema is. -/
  sourceDatabase : Option String
  /-- The table maps whose rows are skipped. -/
  ignoredTableIds : List Nat
  /-- Where the current event starts. -/
  currentEventPosition : Option Nat
  /-- Integer variables for the next statement. -/
  pendingIntvars : List PendingIntVar
  /-- Names of user variables for the next statement. -/
  pendingUservars : List String
  deriving DecidableEq, Repr

namespace StructuredEventState

/-- The state at the start of a stream. -/
def new (sourceDatabase : Option String) : StructuredEventState :=
  ⟨sourceDatabase, [], none, [], []⟩

/-- The schema is replicated. -/
def shouldApplySchema (state : StructuredEventState) (schema : String) : Bool :=
  match state.sourceDatabase with
  | none => true
  | some sourceDatabase => sourceDatabase == schema

/-- Remember where the current event starts. -/
def recordEventPosition (state : StructuredEventState) (position : Nat) : StructuredEventState :=
  { state with currentEventPosition := some position }

/-- Skip the rows of a table map. -/
def ignoreTableId (state : StructuredEventState) (tableId : Nat) : StructuredEventState :=
  { state with ignoredTableIds := tableId :: state.ignoredTableIds }

/-- Apply the rows of a table map. -/
def applyTableId (state : StructuredEventState) (tableId : Nat) : StructuredEventState :=
  { state with ignoredTableIds := state.ignoredTableIds.filter (· != tableId) }

/-- The rows of a table map are skipped. -/
def isIgnoredTableId (state : StructuredEventState) (tableId : Nat) : Bool :=
  state.ignoredTableIds.contains tableId

/-- Keep an integer variable for the next statement. -/
def recordIntvar (state : StructuredEventState) (intvarType value : Nat) :
    StructuredEventState :=
  { state with pendingIntvars := state.pendingIntvars ++ [⟨intvarType, value⟩] }

/-- Keep a user variable for the next statement. -/
def recordUservar (state : StructuredEventState) (name : String) : StructuredEventState :=
  { state with pendingUservars := state.pendingUservars ++ [name] }

/-- Forget the variables of the last statement. -/
def clearQueryContext (state : StructuredEventState) : StructuredEventState :=
  { state with pendingIntvars := [], pendingUservars := [] }

end StructuredEventState

/-! ## Query events -/

/-- The statement only controls a transaction. -/
@[irreducible] def isTransactionControlQuery (sql : String) : Bool :=
  let text := Text.toAsciiUppercase (Text.trimEndMatches (· == ';') (Text.trim sql.toList))
  text == "BEGIN".toList || text == "COMMIT".toList || text == "ROLLBACK".toList

/-- The statement names an object of the replicated schema. -/
def queryReferencesSourceSchema (state : StructuredEventState) (sql : String) : Bool :=
  match state.sourceDatabase with
  | none => false
  | some schema => queryReferencesSchemaWithMode sql.toList schema.toList false

/-- The start of a statement, for messages. -/
def statementExcerpt (sql : String) : String := String.ofList (sql.toList.take 120)

/-- The check before a statement is applied: an error, a policy that ends the event, or
nothing. -/
def queryEventPrecheck (state : StructuredEventState) (query : QueryEvent) :
    Except ApplyBinlogError (Option EventPolicy) :=
  let statementDml := isDataChangingStatement query.sqlStatement.toList
  let mayTargetSourceSchema := state.shouldApplySchema query.databaseName ||
    query.databaseName.isEmpty || queryReferencesSourceSchema state query.sqlStatement
  if statementDml && mayTargetSourceSchema then
    .error (mappingError ("ROW/FULL contract violation: source emitted statement DML QueryEvent: "
      ++ statementExcerpt query.sqlStatement))
  else if !state.shouldApplySchema query.databaseName then .ok (some .ignore)
  else if isTransactionControlQuery query.sqlStatement then .ok (some .ignore)
  else .ok none

/-- A statement with a qualified name cannot be replayed. -/
def rejectAmbiguousQueryDatabase (sql : String) : Except ApplyBinlogError Unit :=
  if queryContainsQualifiedIdentifierWithMode sql.toList false then
    .error (mappingError ("cannot replay QueryEvent with qualified identifier: "
      ++ statementExcerpt sql))
  else .ok ()

/-! ## Row events -/

/-- The target's view of a table map. -/
structure RowTableMap where
  /-- The id row events refer to. -/
  tableId : Nat
  /-- The target schema. -/
  schema : String
  /-- The target table. -/
  table : String
  /-- The columns in row image order. -/
  columns : List String
  /-- The primary key columns. -/
  primaryKey : List String
  /-- The columns the target computes. -/
  generatedColumns : List String
  /-- The signed integer columns. -/
  signedColumns : List String
  /-- The members of enumeration columns. -/
  enumColumns : List (String × List String)
  /-- The members of set columns. -/
  setColumns : List (String × List String)
  deriving DecidableEq, Repr

/-- The column values of a row. -/
abbrev RowImage := List (String × TargetValue)

/-- The parts of the row mapping that read the target schema, convert values and build
statements. Errors of the last three are the texts of row application errors. -/
structure RowCodec where
  /-- The table map in terms of the target schema; nothing when its shape cannot be mapped. -/
  mapTableMapEvent : BinlogCoordinate → SourceTableMap →
    Except ApplyBinlogError (Option RowTableMap)
  /-- A source cell as a target value. -/
  mysqlValueToTargetValue : Option MySqlValue → Bool → Option (List String) →
    Except ApplyBinlogError TargetValue
  /-- The check of all inserted rows before the first one is applied. -/
  validateRowsHavePrimaryKeys : RowTableMap → List RowImage → BinlogCoordinate →
    Except String Unit
  /-- The change that inserts a row. -/
  insertChange : RowTableMap → RowImage → BinlogCoordinate →
    Except String (Option TargetRowChange)
  /-- The change that updates a row; nothing when no column changes. -/
  updateChange : RowTableMap → RowImage × RowImage → BinlogCoordinate →
    Except String (Option TargetRowChange)
  /-- The change that deletes a row. -/
  deleteChange : RowTableMap → RowImage → BinlogCoordinate →
    Except String (Option TargetRowChange)

/-- Row images must be full, except for columns the target computes. -/
def requireFullRowImage (columnsPresent : List Bool) (table : RowTableMap) (operation : String) :
    Except ApplyBinlogError Unit :=
  let complete := columnsPresent.length == table.columns.length &&
    (columnsPresent.zip table.columns).all fun (present, column) =>
      present || table.generatedColumns.contains column
  if complete then .ok ()
  else
    .error (mappingError s!"cannot apply {operation} row event without FULL binlog row image")

/-- The table map a row event refers to. -/
def rowEventTableMap (registry : List (Nat × RowTableMap)) (tableId : Nat)
    (coordinate : BinlogCoordinate) : Except ApplyBinlogError RowTableMap :=
  match registry.lookup tableId with
  | some table => .ok table
  | none =>
    .error (mappingError (s!"missing table map for table id {tableId} at " ++
      s!"{coordinate.file}:{coordinate.position}"))

section RowMapping

variable (codec : RowCodec)

/-- The column values of a row image. -/
def mapRowData (row : RowData) (table : RowTableMap) : Except ApplyBinlogError RowImage :=
  if row.cells.length = table.columns.length then
    (table.columns.zip row.cells).mapM fun (column, value) => do
      let signed := table.signedColumns.contains column
      let targetValue ← codec.mysqlValueToTargetValue value signed
        (table.enumColumns.lookup column)
      pure (column, targetValue)
  else
    .error (mappingError (s!"row has {row.cells.length} cells but table map has " ++
      s!"{table.columns.length} columns"))

/-- One row of an event as the applier meets it: a change, nothing to do, or an error. -/
abbrev PlannedRow := Except String (Option TargetRowChange)

/-- The rows of an insert event: everything that is checked before the first one is applied,
then each row's change. -/
def planWriteRows (registry : List (Nat × RowTableMap)) (coordinate : BinlogCoordinate)
    (rows : RowsEvent) : Except ApplyBinlogError (List PlannedRow) := do
  let table ← rowEventTableMap registry rows.tableId coordinate
  requireFullRowImage rows.columnsPresent table "write"
  let images ← rows.rows.mapM fun row => mapRowData codec row table
  match codec.validateRowsHavePrimaryKeys table images coordinate with
  | .error message => .error (.target message)
  | .ok () => pure (images.map fun image => codec.insertChange table image coordinate)

/-- The rows of an update event. -/
def planUpdateRows (registry : List (Nat × RowTableMap)) (coordinate : BinlogCoordinate)
    (rows : UpdateRowsEvent) : Except ApplyBinlogError (List PlannedRow) := do
  let table ← rowEventTableMap registry rows.tableId coordinate
  requireFullRowImage rows.columnsBeforeUpdate table "update before"
  requireFullRowImage rows.columnsAfterUpdate table "update after"
  let images ← rows.rows.mapM fun row => do
    let before ← mapRowData codec row.1 table
    let after ← mapRowData codec row.2 table
    pure (before, after)
  pure (images.map fun image => codec.updateChange table image coordinate)

/-- The rows of a delete event. -/
def planDeleteRows (registry : List (Nat × RowTableMap)) (coordinate : BinlogCoordinate)
    (rows : RowsEvent) : Except ApplyBinlogError (List PlannedRow) := do
  let table ← rowEventTableMap registry rows.tableId coordinate
  requireFullRowImage rows.columnsPresent table "delete"
  let images ← rows.rows.mapM fun row => mapRowData codec row table
  pure (images.map fun image => codec.deleteChange table image coordinate)

end RowMapping

end BinlogCdc
