import BinlogCdc.Stream.Apply

/-!
# Grouped target transactions

The stream applies rows inside a target transaction that may span several source
transactions. A group is committed when it is full, when it has timed out, before a
rotation and after a replayed statement; the checkpoint of its last source position is
written in the same transaction. Without an open transaction a checkpoint goes
directly to the store.
-/

namespace BinlogCdc

/-! ## The stream's record of its transaction -/

namespace TargetTransaction

/-- The group has been open for the configured time. -/
def groupTimedOut (transaction : TargetTransaction) (config : TargetTransactionGroupConfig)
    (now : Nat) : Bool :=
  0 < config.timeout &&
    match transaction.openedAt with
    | none => false
    | some openedAt => config.timeout ≤ now - openedAt

/-- Some source transaction of the group is complete. -/
def hasCompletedSourceTransactions (transaction : TargetTransaction) : Bool :=
  0 < transaction.sourceTransactions

/-- The group is to be committed. -/
def shouldFlush (transaction : TargetTransaction) (config : TargetTransactionGroupConfig)
    (force : Bool) (now : Nat) : Bool :=
  transaction.hasCompletedSourceTransactions &&
    (force || config.size ≤ 1 || config.size ≤ transaction.sourceTransactions ||
      transaction.groupTimedOut config now)

/-- Count a complete source transaction. -/
def recordSourceTransaction (transaction : TargetTransaction) : TargetTransaction :=
  if transaction.isOpen then
    { transaction with sourceTransactions := transaction.sourceTransactions + 1 }
  else transaction

/-- Keep the checkpoint to store after the transaction. -/
def rememberFileCheckpoint (transaction : TargetTransaction) (checkpoint : Checkpoint) :
    TargetTransaction :=
  { transaction with pendingFileCheckpoint := some checkpoint }

/-- Keep the checkpoint to write in the transaction. -/
def rememberTransactionCheckpoint (transaction : TargetTransaction) (checkpoint : Checkpoint) :
    TargetTransaction :=
  { transaction with pendingTransactionCheckpoint := some checkpoint }

end TargetTransaction

/-- The event may write to the target. -/
def eventCanWriteTarget (event : BinlogEvent) (state : StructuredEventState) : Bool :=
  match event with
  | .writeRows rows => !state.isIgnoredTableId rows.tableId
  | .updateRows rows => !state.isIgnoredTableId rows.tableId
  | .deleteRows rows => !state.isIgnoredTableId rows.tableId
  | .query query => state.shouldApplySchema query.databaseName &&
      !isDataChangingStatement query.sqlStatement.toList
  | _ => false

section Grouping

variable (world : World)

/-- Begin a target transaction unless the stream has one. -/
def beginIfNeeded : Stream Unit := do
  let transaction ← Prog.reads Runtime.targetTransaction
  if transaction.isOpen then pure ()
  else
    transition world .target .begin Target.begin
    let now ← readClock world
    updateTransaction fun transaction => { transaction with isOpen := true, openedAt := some now }

/-- End the stream's target transaction, if there is one. -/
def finishIfOpen (op : TargetOp) (effect : Target → Target) : Stream Unit := do
  let transaction ← Prog.reads Runtime.targetTransaction
  if transaction.isOpen then
    transition world .target op effect
    updateTransaction fun _ => {}
  else pure ()

/-- Commit the stream's target transaction, if there is one. -/
def commitIfOpen : Stream Unit := finishIfOpen world .commit Target.commit

/-- Roll the stream's target transaction back, if there is one. -/
def rollbackIfOpen : Stream Unit := finishIfOpen world .rollback Target.rollback

/-! ## The checkpoint store -/

/-- Read the checkpoint over the store's connection. -/
def loadCheckpoint : Stream (Option Checkpoint) := do
  let checkpoint ← operate world .checkpoint (fun _ => .loadStore)
    fun target => .ok (target.db.checkpoint, target)
  Prog.update fun s => { s with lastCheckpoint := checkpoint }
  pure checkpoint

/-- The checkpoint to compare with: the one the store knows, else the stored one. -/
def checkpointForSkip : Stream (Option Checkpoint) := do
  match ← Prog.reads Runtime.lastCheckpoint with
  | some checkpoint => pure (some checkpoint)
  | none => loadCheckpoint world

/-- Write the checkpoint over the store's connection. -/
def saveCheckpoint (checkpoint : Checkpoint) : Stream Unit := do
  transition world .checkpoint (.saveStore checkpoint) fun target =>
    target.storeCheckpoint checkpoint
  Prog.update fun s => { s with lastCheckpoint := some checkpoint }

/-- Nothing is stored for position zero and for positions not after the known one. -/
def shouldSkipCheckpoint (checkpoint : Checkpoint) : Stream Bool := do
  if checkpoint.sourcePosition = 0 then pure true
  else
    match ← checkpointForSkip world with
    | none => pure false
    | some current => pure (decide (current.sourceFile = checkpoint.sourceFile ∧
        checkpoint.sourcePosition ≤ current.sourcePosition))

variable (config : StreamConfig)

/-- Store the checkpoint of a coordinate directly. -/
def saveCoordinateCheckpoint (coordinate : BinlogCoordinate) (eventType : String) :
    Stream Unit := do
  let checkpoint := coordinateCheckpoint coordinate eventType
  if config.checkpoint.store then
    if ← shouldSkipCheckpoint world checkpoint then pure ()
    else saveCheckpoint world checkpoint
  else pure ()

/-! ## Groups -/

/-- Write the checkpoint in the open transaction, never backwards. -/
def lockValidateAndSaveCheckpoint (checkpointName : String) (checkpoint : Checkpoint) :
    Stream Unit := do
  match ← operate world .target (fun _ => .lockCheckpoint)
    fun target => .ok (target.view.checkpoint, target) with
  | none =>
    stopWith (.checkpoint (s!"required source-scoped checkpoint `{checkpointName}` " ++
      "disappeared during target transaction"))
  | some current =>
    decided (ensureCoordinateAdvances (some current) checkpoint.coordinate)
    transition world .target (.saveCheckpoint checkpoint) fun target =>
      target.saveCheckpoint checkpoint

/-- Write the pending checkpoint in the open transaction and commit it. -/
def commitTargetGroup : Stream Unit := do
  let transaction ← Prog.reads Runtime.targetTransaction
  updateTransaction fun transaction => { transaction with pendingTransactionCheckpoint := none }
  match transaction.pendingTransactionCheckpoint, config.checkpoint.table,
    config.checkpoint.name with
  | some checkpoint, some _, some checkpointName =>
    Prog.onError (lockValidateAndSaveCheckpoint world checkpointName checkpoint) fun error => do
      updateTransaction fun transaction => transaction.rememberTransactionCheckpoint checkpoint
      stopWith error
  | _, _, _ => pure ()
  commitIfOpen world

/-- Commit the open group if some source transaction of it is complete. -/
def flushGroupedTransaction : Stream Unit := do
  let transaction ← Prog.reads Runtime.targetTransaction
  if !transaction.hasCompletedSourceTransactions then pure ()
  else
    let checkpoint := transaction.pendingFileCheckpoint
    updateTransaction fun transaction => { transaction with pendingFileCheckpoint := none }
    Prog.onError (commitTargetGroup world config) fun error => do
      updateTransaction fun transaction => { transaction with
        pendingFileCheckpoint := checkpoint.or transaction.pendingFileCheckpoint }
      stopWith error
    match checkpoint with
    | some checkpoint =>
      if config.checkpoint.store then saveCheckpoint world checkpoint else pure ()
    | none => pure ()

/-- Keep the checkpoint of an event for the end of the group. -/
def rememberFileCheckpoint (event : BinlogEvent) (outcome : StructuredEventOutcome) :
    Stream Unit :=
  match outcome.resumeCoordinate with
  | none => pure ()
  | some coordinate => do
    updateTransaction fun transaction =>
      transaction.rememberFileCheckpoint (coordinateCheckpoint coordinate (eventName event))
    Prog.update fun s => { s with currentFile := coordinate.file }

/-- Save the checkpoint of an event: with the open transaction, or directly. -/
def saveOutcomeCheckpoint (event : BinlogEvent) (outcome : StructuredEventOutcome) :
    Stream Unit :=
  match outcome.resumeCoordinate with
  | none => pure ()
  | some coordinate => do
    let transaction ← Prog.reads Runtime.targetTransaction
    if transaction.isOpen && config.checkpoint.table.isSome && config.checkpoint.name.isSome then
      updateTransaction fun transaction => transaction.rememberTransactionCheckpoint
        (coordinateCheckpoint coordinate (eventName event))
      Prog.update fun s => { s with currentFile := coordinate.file }
    else
      saveCoordinateCheckpoint world config coordinate (eventName event)
      Prog.update fun s => { s with currentFile := coordinate.file }

/-- Count a complete source transaction and commit the group if it is due. -/
def finishSourceTransaction (event : BinlogEvent) (outcome : StructuredEventOutcome)
    (forceFlush : Bool) : Stream Unit := do
  updateTransaction TargetTransaction.recordSourceTransaction
  if config.checkpoint.table.isSome then
    saveOutcomeCheckpoint world config event outcome
    let now ← readClock world
    let transaction ← Prog.reads Runtime.targetTransaction
    if transaction.shouldFlush config.groupConfig forceFlush now then
      commitTargetGroup world config
    else pure ()
  else
    rememberFileCheckpoint event outcome
    let now ← readClock world
    let transaction ← Prog.reads Runtime.targetTransaction
    if transaction.shouldFlush config.groupConfig forceFlush now then
      flushGroupedTransaction world config
    else pure ()

/-- The event changes to another binlog file. -/
def BinlogEvent.isRotate : BinlogEvent → Bool
  | .rotate _ _ => true
  | _ => false

/-- The event is a query event. -/
def BinlogEvent.isQuery : BinlogEvent → Bool
  | .query _ => true
  | _ => false

/-- Apply an event inside the stream's target transaction. -/
def applyStreamEventTransactionally (header : EventHeader) (event : BinlogEvent) :
    Stream StructuredEventOutcome := do
  let now ← readClock world
  let transaction ← Prog.reads Runtime.targetTransaction
  if transaction.shouldFlush config.groupConfig false now || event.isRotate then
    flushGroupedTransaction world config
  else pure ()
  let state ← Prog.reads Runtime.state
  if eventCanWriteTarget event state then beginIfNeeded world else pure ()
  let outcome ← Prog.onError (handleStructuredEvent world header event) fun error => do
    rollbackIfOpen world
    stopWith error
  if outcome.policy = .commitTransaction then
    finishSourceTransaction world config event outcome event.isQuery
    pure outcome
  else
    saveOutcomeCheckpoint world config event outcome
    pure outcome

end Grouping

end BinlogCdc
