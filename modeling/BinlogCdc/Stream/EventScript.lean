import BinlogCdc.Stream.Script

/-!
# The script of an event

What the transactional handler does with one event: the work the event handlers apply,
the state they leave, where the checkpoint of the event goes, and the composition of
all stages. Only the clock readings are free; everything else is a function of the
state before the event.
-/

namespace BinlogCdc

/-! ## Work -/

/-- The operation that applies a piece of work. -/
def TargetWork.op : TargetWork → TargetOp
  | .rowChange source change => .rowChange source change
  | .statement source sql => .replay source sql

/-- The target after a piece of work. -/
def Target.applyOne (target : Target) : TargetWork → Target
  | .rowChange source change => target.applyWork [.rowChange source change]
  | .statement source sql => target.replay source sql

/-- The target after a list of work. -/
def Target.applyAll (target : Target) (work : List TargetWork) : Target :=
  work.foldl Target.applyOne target

/-- The operations that apply a list of work. -/
def workScript (target : Target) : List TargetWork → List TraceEntry
  | [] => []
  | work :: rest =>
    ⟨work.op, target, target.applyOne work⟩ :: workScript (target.applyOne work) rest

/-- The row changes of planned rows. -/
def rowChanges (rows : List PlannedRow) : List TargetRowChange :=
  rows.filterMap fun
    | .ok change => change
    | .error _ => none

/-- The rows of a row event. -/
def planRows (codec : RowCodec) (registry : List (Nat × RowTableMap))
    (coordinate : BinlogCoordinate) (event : BinlogEvent) :
    Except ApplyBinlogError (List PlannedRow) :=
  match event with
  | .writeRows rows => planWriteRows codec registry coordinate rows
  | .updateRows rows => planUpdateRows codec registry coordinate rows
  | .deleteRows rows => planDeleteRows codec registry coordinate rows
  | _ => .ok []

/-- The row event is for a table whose rows are skipped. -/
def rowsIgnored (state : StructuredEventState) : BinlogEvent → Bool
  | .writeRows rows => state.isIgnoredTableId rows.tableId
  | .updateRows rows => state.isIgnoredTableId rows.tableId
  | .deleteRows rows => state.isIgnoredTableId rows.tableId
  | _ => true

/-- The query passes the check and its statement is executed as it is. -/
def replaysStatement (state : StructuredEventState) (query : QueryEvent) : Bool :=
  match queryEventPrecheck state query with
  | .ok none => classifyStatement (normalizeStatement query.sqlStatement.toList) == .replay
  | _ => false

/-- The event ends a source transaction or is a statement to apply. -/
def completesTransaction (state : StructuredEventState) : BinlogEvent → Bool
  | .xid _ => true
  | .query query => queryEventPrecheck state query == .ok none
  | _ => false

/-! ## What has been read -/

/-- What the stream has read so far, as far as it decides about later events. -/
structure Reader where
  /-- The binlog file being read. -/
  currentFile : String
  /-- The state of the event handlers. -/
  state : StructuredEventState
  /-- The table maps in force. -/
  registry : List (Nat × RowTableMap)
  deriving DecidableEq, Repr

namespace Reader

variable (codec : RowCodec) (reader : Reader) (header : EventHeader) (event : BinlogEvent)

/-- The coordinate an event is reported at. -/
def coordinate : BinlogCoordinate :=
  eventCoordinate reader.currentFile header event reader.state.currentEventPosition

/-- Where the stream may resume after an event. -/
def resume : Option BinlogCoordinate := resumeCoordinate reader.currentFile header event

/-- The work the handlers apply for an event. -/
def work : List TargetWork :=
  match event with
  | .query query =>
    if replaysStatement reader.state query then
      [.statement (reader.coordinate header event) query.sqlStatement]
    else []
  | event =>
    if rowsIgnored reader.state event then []
    else
      match planRows codec reader.registry (reader.coordinate header event) event with
      | .ok rows => (rowChanges rows).map (.rowChange (reader.coordinate header event))
      | .error _ => []

/-- What is known after the handlers succeeded on an event. -/
def handled : Reader :=
  match event with
  | .tableMap tableMap =>
    if !reader.state.shouldApplySchema tableMap.databaseName then
      { reader with state := reader.state.ignoreTableId tableMap.tableId }
    else
      match codec.mapTableMapEvent (reader.coordinate header event) tableMap with
      | .ok (some table) =>
        { reader with
          state := reader.state.applyTableId tableMap.tableId
          registry := (table.tableId, table) :: reader.registry }
      | .ok none =>
        { reader with
          state := (reader.state.applyTableId tableMap.tableId).ignoreTableId tableMap.tableId }
      | .error _ => reader
  | .intVar intvarType value =>
    { reader with state := reader.state.recordIntvar intvarType value }
  | .userVar name => { reader with state := reader.state.recordUservar name }
  | .query _ => { reader with state := reader.state.clearQueryContext }
  | _ => reader

/-- What is known after an event was handled and its resume coordinate recorded. -/
def next : Reader :=
  { reader.handled codec header event with
    currentFile := ((reader.resume header event).map BinlogCoordinate.file).getD
      reader.currentFile }

end Reader

/-! ## The stages after the transaction is begun -/

/-- The session variables set before a statement. -/
def contextScript (target : Target) (state : StructuredEventState) : BinlogEvent → List TraceEntry
  | .query query =>
    if queryEventPrecheck state query == .ok none then
      state.pendingIntvars.map fun intvar => ⟨.setInsertId intvar.value, target, target⟩
    else []
  | _ => []

namespace StreamCore

/-- What a stream attempt has read. -/
def reader (c : StreamCore) : Reader := ⟨c.currentFile, c.state, c.registry⟩

@[simp] theorem reader_currentFile (c : StreamCore) : c.reader.currentFile = c.currentFile := rfl
@[simp] theorem reader_state (c : StreamCore) : c.reader.state = c.state := rfl
@[simp] theorem reader_registry (c : StreamCore) : c.reader.registry = c.registry := rfl

section Event

variable (codec : RowCodec) (config : TargetTransactionGroupConfig) (c : StreamCore)
  (header : EventHeader) (event : BinlogEvent)

/-- The state after the handlers succeeded on an event. -/
def handled : StreamCore :=
  { c with
    target := c.target.applyAll (c.reader.work codec header event)
    state := (c.reader.handled codec header event).state
    registry := (c.reader.handled codec header event).registry }

/-- The operations of the handlers on an event. -/
def handleScript : List TraceEntry :=
  contextScript c.target c.state event ++
    workScript c.target (c.reader.work codec header event)

/-- A checkpoint is not stored: it has no position, or is not after the known one. -/
def skipsCheckpoint (known : Option Checkpoint) (checkpoint : Checkpoint) : Bool :=
  checkpoint.sourcePosition == 0 ||
    match known with
    | none => false
    | some current => decide (current.sourceFile = checkpoint.sourceFile ∧
        checkpoint.sourcePosition ≤ current.sourcePosition)

/-- The checkpoint the store compares with. -/
def knownCheckpoint : Option Checkpoint := c.lastCheckpoint.or c.target.db.checkpoint

/-- The state after a checkpoint went directly to the store. -/
def stored (checkpoint : Checkpoint) : StreamCore :=
  if checkpoint.sourcePosition = 0 then c
  else if skipsCheckpoint c.knownCheckpoint checkpoint then
    { c with lastCheckpoint := c.knownCheckpoint }
  else
    { c with target := c.target.storeCheckpoint checkpoint, lastCheckpoint := some checkpoint }

/-- The operations that store a checkpoint directly. -/
def storeScript (checkpoint : Checkpoint) : List TraceEntry :=
  if checkpoint.sourcePosition = 0 then []
  else
    (if c.lastCheckpoint.isNone then [⟨.loadStore, c.target, c.target⟩] else []) ++
      if skipsCheckpoint c.knownCheckpoint checkpoint then []
      else [⟨.saveStore checkpoint, c.target, c.target.storeCheckpoint checkpoint⟩]

/-- The state after the checkpoint of an event is remembered or stored. -/
def saved (resume : Option BinlogCoordinate) : StreamCore :=
  match resume with
  | none => c
  | some coordinate =>
    let checkpoint := coordinateCheckpoint coordinate (eventName event)
    if c.targetTransaction.isOpen then
      { c with
        targetTransaction := c.targetTransaction.rememberTransactionCheckpoint checkpoint
        currentFile := coordinate.file }
    else { c.stored checkpoint with currentFile := coordinate.file }

/-- The operations that store the checkpoint of an event. -/
def savedScript (resume : Option BinlogCoordinate) : List TraceEntry :=
  match resume with
  | none => []
  | some coordinate =>
    if c.targetTransaction.isOpen then []
    else c.storeScript (coordinateCheckpoint coordinate (eventName event))

/-- The state after a complete source transaction is counted. -/
def counted : StreamCore :=
  { c with targetTransaction := c.targetTransaction.recordSourceTransaction }

/-- The group is committed at the end of a source transaction. -/
def isDue (now : Nat) : Bool := c.targetTransaction.shouldFlush config event.isQuery now

/-- The state after the end of a source transaction. -/
def finished (resume : Option BinlogCoordinate) (now : Nat) : StreamCore :=
  let c := c.counted.saved event resume
  if c.isDue config event now then c.committed else c

/-- The operations at the end of a source transaction. -/
def finishScript (resume : Option BinlogCoordinate) (now : Nat) : List TraceEntry :=
  let last := c.counted.saved event resume
  c.counted.savedScript event resume ++
    if last.isDue config event now then commitScript last.target last.pending else []

/-! ## The whole event -/

/-- The group is committed before the event. -/
def flushesBefore (now : Nat) : Bool :=
  c.targetTransaction.shouldFlush config false now || event.isRotate

/-- The state after the group is committed before the event, if it is. -/
def settled (now : Nat) : StreamCore := if c.flushesBefore config event now then c.flushed else c

/-- The state after a transaction is begun for the event, if it needs one. -/
def entered (now : Nat) : StreamCore :=
  if eventCanWriteTarget event c.state then c.begun now else c

/-- The state after the event's own stage: the end of a source transaction or its checkpoint. -/
def closed (completes : Bool) (resume : Option BinlogCoordinate) (now : Nat) : StreamCore :=
  if completes then c.finished config event resume now else c.saved event resume

end Event

end StreamCore

/-- The clock readings of one event. -/
structure Readings where
  /-- Before the event. -/
  before : Nat
  /-- When a transaction is begun. -/
  opened : Nat
  /-- After the event. -/
  after : Nat
  deriving DecidableEq, Repr

namespace StreamCore

variable (codec : RowCodec) (config : TargetTransactionGroupConfig) (c : StreamCore)
  (header : EventHeader) (event : BinlogEvent) (now : Readings)

/-- The state in which the handlers find the event. -/
def ready : StreamCore := (c.settled config event now.before).entered event now.opened

/-- The operations before the handlers. -/
def readyScript : List TraceEntry :=
  let settled := c.settled config event now.before
  (if c.flushesBefore config event now.before then c.flushScript else []) ++
    if eventCanWriteTarget event settled.state then settled.beginScript else []

/-- The state after the event. -/
def applied : StreamCore :=
  let ready := c.ready config event now
  (ready.handled codec header event).closed config event
    (completesTransaction ready.state event) (ready.reader.resume header event) now.after

/-- The operations after the handlers. -/
def closeScript : List TraceEntry :=
  let ready := c.ready config event now
  let handled := ready.handled codec header event
  let resume := ready.reader.resume header event
  if completesTransaction ready.state event then handled.finishScript config event resume now.after
  else handled.savedScript event resume

/-- The operations for the event. -/
def eventScript : List TraceEntry :=
  c.readyScript config event now ++
    ((c.ready config event now).handleScript codec header event ++
      c.closeScript codec config header event now)

end StreamCore

end BinlogCdc
