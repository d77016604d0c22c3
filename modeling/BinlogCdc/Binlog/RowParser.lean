import BinlogCdc.Binlog.TableMapParser

/-!
# Row events of the binlog

The parsers of the row events: the head, the bitmaps of the columns, and rows until the payload ends.
A row has a bitmap of its null cells, and then the cells that are there and not null.
-/

namespace BinlogCdc.MysqlCdc

open BinlogCdc.Core

/-! ## The head -/

/-- The data that newer versions have between the flags and the columns is left out. -/
def skipExtraData (rowEventVersion : Nat) : PayloadReader Unit :=
  if rowEventVersion = 2 then do
    let extraDataLength ← readLe 2
    seekCurrent ((extraDataLength : Int) - 2)
  else pure ()

/-- The table, the flags and the number of columns. -/
def parseHead (rowEventVersion : Nat) : PayloadReader (Nat × Nat × Nat) := do
  let tableId ← readLe 6
  let flags ← readLe 2
  skipExtraData rowEventVersion
  let columnsNumber ← readLenEncNum
  return (tableId, flags, columnsNumber)

/-! ## Rows -/

/-- The cells of a row from a column on. A place that a bitmap does not have stops the client. -/
def parseCells (metadata : List UInt16) (columnsPresent nullBitmap : List Bool) :
    Nat → Nat → List UInt8 → PayloadReader (List (Option MySqlValue))
  | _, _, [] => pure []
  | i, skippedColumns, columnType :: columnTypes =>
    match columnsPresent[i]? with
    | none => Reader.halt .outOfBounds
    -- The image leaves the column out.
    | some false => do
      let cells ← parseCells metadata columnsPresent nullBitmap (i + 1) (skippedColumns + 1) columnTypes
      return none :: cells
    | some true =>
      match nullBitmap[i - skippedColumns]? with
      | none => Reader.halt .outOfBounds
      | some true => do
        let cells ← parseCells metadata columnsPresent nullBitmap (i + 1) skippedColumns columnTypes
        return none :: cells
      | some false =>
        match metadata[i]? with
        | none => Reader.halt .outOfBounds
        | some columnMetadata => do
          let cell ← readCell columnType columnMetadata
          let cells ← parseCells metadata columnsPresent nullBitmap (i + 1) skippedColumns columnTypes
          return some cell :: cells

/-- The number of bits that are set. -/
def getBitsNumber (bitmap : List Bool) : Nat := bitmap.count true

def parseRow (table : SourceTableMap) (columnsPresent : List Bool) (cellsIncluded : Nat) :
    PayloadReader RowData := do
  let nullBitmap ← readBitmapLittleEndian cellsIncluded
  let cells ← parseCells table.columnMetadata columnsPresent nullBitmap 0 0 table.columnTypes
  return ⟨cells⟩

/-- The table maps that the client has seen. -/
abbrev TableMaps := List (Nat × TableMapEvent)

def tableMapNotFound : String :=
  "No preceding TableMapEvent event was found for the row event. " ++
  "You possibly started replication in the middle of logical event group."

/-- The table map of a row event. -/
def findTableMap (tableMap : TableMaps) (tableId : Nat) : PayloadReader TableMapEvent :=
  match tableMap.lookup tableId with
  | some table => pure table
  | none => fail tableMapNotFound

def parseRowDataList (tableMap : TableMaps) (tableId : Nat) (columnsPresent : List Bool) :
    PayloadReader (List RowData) := do
  let table ← findTableMap tableMap tableId
  Reader.whileLeft (parseRow table.toSourceTableMap columnsPresent (getBitsNumber columnsPresent))

/-- A row before and after an update. -/
def parseUpdateRow (table : SourceTableMap) (columnsBeforeUpdate columnsAfterUpdate : List Bool) :
    PayloadReader (RowData × RowData) := do
  let rowBeforeUpdate ← parseRow table columnsBeforeUpdate (getBitsNumber columnsBeforeUpdate)
  let rowAfterUpdate ← parseRow table columnsAfterUpdate (getBitsNumber columnsAfterUpdate)
  return (rowBeforeUpdate, rowAfterUpdate)

def parseUpdateRowDataList (tableMap : TableMaps) (tableId : Nat)
    (columnsBeforeUpdate columnsAfterUpdate : List Bool) :
    PayloadReader (List (RowData × RowData)) := do
  let table ← findTableMap tableMap tableId
  Reader.whileLeft (parseUpdateRow table.toSourceTableMap columnsBeforeUpdate columnsAfterUpdate)

/-! ## Events -/

/-- An event with inserted or deleted rows. -/
structure RowsEvent extends BinlogCdc.RowsEvent where
  flags : Nat
  columnsNumber : Nat
  deriving DecidableEq, Repr

structure UpdateRowsEvent extends BinlogCdc.UpdateRowsEvent where
  flags : Nat
  columnsNumber : Nat
  deriving DecidableEq, Repr

/-- Inserted rows, or deleted rows, which are parsed alike. -/
def parseRowsEvent (tableMap : TableMaps) (rowEventVersion : Nat) : PayloadReader RowsEvent := do
  let (tableId, flags, columnsNumber) ← parseHead rowEventVersion
  let columnsPresent ← readBitmapLittleEndian columnsNumber
  let rows ← parseRowDataList tableMap tableId columnsPresent
  return { tableId, columnsPresent, rows, flags, columnsNumber }

def parseUpdateRowsEvent (tableMap : TableMaps) (rowEventVersion : Nat) :
    PayloadReader UpdateRowsEvent := do
  let (tableId, flags, columnsNumber) ← parseHead rowEventVersion
  let columnsBeforeUpdate ← readBitmapLittleEndian columnsNumber
  let columnsAfterUpdate ← readBitmapLittleEndian columnsNumber
  let rows ← parseUpdateRowDataList tableMap tableId columnsBeforeUpdate columnsAfterUpdate
  return { tableId, columnsBeforeUpdate, columnsAfterUpdate, rows, flags, columnsNumber }

end BinlogCdc.MysqlCdc
