import BinlogCdc.Stream.Runtime

/-!
# Event handlers

The handlers of single events: table maps, row events and query events. A handler may
fail after some of its operations took effect; the caller decides about the
transaction they belong to.
-/

namespace BinlogCdc

section Handlers

variable (world : World)

/-! ## Table maps and rows -/

/-- Record a table map, or the decision to skip its rows. -/
def applyTableMapEvent (coordinate : BinlogCoordinate) (tableMap : SourceTableMap) :
    Stream EventPolicy := do
  let state ← Prog.reads Runtime.state
  if !state.shouldApplySchema tableMap.databaseName then
    updateState fun state => state.ignoreTableId tableMap.tableId
    pure .ignore
  else
    updateState fun state => state.applyTableId tableMap.tableId
    match ← decided (world.codec.mapTableMapEvent coordinate tableMap) with
    | none =>
      -- A table that cannot be mapped is skipped until its next table map.
      updateState fun state => state.ignoreTableId tableMap.tableId
      pure .ignore
    | some table =>
      Prog.update fun s => { s with registry := (table.tableId, table) :: s.registry }
      pure .applyTableMap

/-- The name of a row operation in messages. -/
def RowOperation.display : RowOperation → String
  | .insert => "insert"
  | .update => "update"
  | .delete => "delete"

/-- The message of a row change the target refused. -/
def rowTargetError (coordinate : BinlogCoordinate) (change : TargetRowChange) (source : String) :
    ApplyBinlogError :=
  .target (s!"failed to apply {change.kind.display} row event for {change.schema}." ++
    s!"{change.table} at {coordinate.file}:{coordinate.position}: {source}")

/-- Apply one row of an event. -/
def applyPlannedRow (coordinate : BinlogCoordinate) (row : PlannedRow) : Stream Unit :=
  match row with
  | .error message => stopWith (.target message)
  | .ok none => pure ()
  | .ok (some change) =>
    transition world (rowTargetError coordinate change) (.rowChange coordinate change)
      fun target => target.applyWork [.rowChange coordinate change]

/-- Apply the rows of an event one after the other. -/
def applyRowEvent (coordinate : BinlogCoordinate)
    (plan : Except ApplyBinlogError (List PlannedRow)) : Stream EventPolicy := do
  let rows ← decided plan
  Prog.forEach rows (applyPlannedRow world coordinate)
  pure .applyRows

/-- Apply inserted rows. -/
def applyWriteRowsEvent (coordinate : BinlogCoordinate) (rows : RowsEvent) :
    Stream EventPolicy := do
  let s ← Prog.reads id
  if s.state.isIgnoredTableId rows.tableId then pure .ignore
  else applyRowEvent world coordinate (planWriteRows world.codec s.registry coordinate rows)

/-- Apply updated rows. -/
def applyUpdateRowsEvent (coordinate : BinlogCoordinate) (rows : UpdateRowsEvent) :
    Stream EventPolicy := do
  let s ← Prog.reads id
  if s.state.isIgnoredTableId rows.tableId then pure .ignore
  else applyRowEvent world coordinate (planUpdateRows world.codec s.registry coordinate rows)

/-- Apply deleted rows. -/
def applyDeleteRowsEvent (coordinate : BinlogCoordinate) (rows : RowsEvent) :
    Stream EventPolicy := do
  let s ← Prog.reads id
  if s.state.isIgnoredTableId rows.tableId then pure .ignore
  else applyRowEvent world coordinate (planDeleteRows world.codec s.registry coordinate rows)

/-! ## Query events -/

/-- Set a session variable of the next statement. -/
def applyIntvar (intvar : PendingIntVar) : Stream Unit :=
  if intvar.intvarType ≠ 2 then
    stopWith (mappingError s!"cannot replay unsupported IntVarEvent type {intvar.intvarType}")
  else transition world .target (.setInsertId intvar.value) id

/-- Set the session variables of the next statement. -/
def applyQueryContext : Stream Unit := do
  let state ← Prog.reads Runtime.state
  if state.pendingUservars ≠ [] then
    stopWith (mappingError ("cannot replay QueryEvent with user variables: "
      ++ ", ".intercalate state.pendingUservars))
  else Prog.forEach state.pendingIntvars (applyIntvar world)

/-- Replay, skip or quarantine a statement. -/
def applyQueryStatement (coordinate : BinlogCoordinate) (query : QueryEvent) :
    Stream EventPolicy :=
  let classificationSql := normalizeStatement query.sqlStatement.toList
  match classifyStatement classificationSql with
  | .replay => do
    transition world
      (fun source => .statement (s!"failed to replay statement at {coordinate.file}:" ++
        s!"{coordinate.position}: {source}: {query.sqlStatement}"))
      (.replay coordinate query.sqlStatement)
      fun target => target.replay coordinate query.sqlStatement
    pure .commitTransaction
  | .skip => pure .commitTransaction
  | .quarantine reason =>
    stopWith (.quarantined [{
      coordinate
      defaultDatabase := some query.databaseName
      sql := String.ofList classificationSql
      reason }])

/-- Apply a query event. -/
def applyQueryEvent (coordinate : BinlogCoordinate) (query : QueryEvent) :
    Stream EventPolicy := do
  let state ← Prog.reads Runtime.state
  match queryEventPrecheck state query with
  | .error error =>
    updateState StructuredEventState.clearQueryContext
    stopWith error
  | .ok (some policy) =>
    updateState StructuredEventState.clearQueryContext
    pure policy
  | .ok none =>
    decided (rejectAmbiguousQueryDatabase query.sqlStatement)
    applyQueryContext world
    Prog.andThen (applyQueryStatement world coordinate query)
      fun s => { s with state := s.state.clearQueryContext }

/-! ## Dispatch -/

/-- Apply an event. Forgetting cached target schemas after a schema change is left out: the
row mapping takes the schema of every table map from the world. -/
def applyStructuredEvent (coordinate : BinlogCoordinate) (event : BinlogEvent) :
    Stream EventPolicy :=
  match event with
  | .tableMap tableMap => applyTableMapEvent world coordinate tableMap
  | .writeRows rows => applyWriteRowsEvent world coordinate rows
  | .updateRows rows => applyUpdateRowsEvent world coordinate rows
  | .deleteRows rows => applyDeleteRowsEvent world coordinate rows
  | .xid _ => pure .commitTransaction
  | .intVar intvarType value => do
    updateState fun state => state.recordIntvar intvarType value
    pure .ignore
  | .userVar name => do
    updateState fun state => state.recordUservar name
    pure .ignore
  | .query query => applyQueryEvent world coordinate query
  | .rowsQuery => pure .ignoreAnnotationEvent
  | _ => pure .ignore

/-- Apply an event and say where the stream may resume after it. -/
def handleStructuredEvent (header : EventHeader) (event : BinlogEvent) :
    Stream StructuredEventOutcome := do
  let s ← Prog.reads id
  let coordinate := eventCoordinate s.currentFile header event s.state.currentEventPosition
  let policy ← applyStructuredEvent world coordinate event
  pure ⟨policy, resumeCoordinate s.currentFile header event⟩

end Handlers

end BinlogCdc
