import BinlogCdc.Core.Program
import BinlogCdc.Sync.Model

/-!
# The target session of a sync

The state a chunk works on and the operations of its sessions. The session sees the
committed rows of the target table together with its own uncommitted changes; locking
and unlocking tables commits what is uncommitted, as the server does. The world decides
what becomes of every operation; it is indexed by a tick that every operation advances.
A mutation is sent in batches of bounded size, one statement for each.
-/

namespace BinlogCdc

/-! ## The world and the state -/

/-- What becomes of a mutation statement. -/
inductive StatementOutcome where
  /-- The statement is executed. -/
  | executed
  /-- The server refuses it, perhaps with an error number. -/
  | refused (code : Option Nat) (message : String)
  /-- The process dies before the statement is issued. -/
  | crashed
  deriving DecidableEq, Repr

/-- The secondary unique indexes of the target table, which of them a duplicate error of the
server names, and when the server takes two rows for equal in one. -/
structure UniqueIndexes where
  /-- The indexes. -/
  indexes : List SyncUniqueIndex
  /-- The index of an error text. -/
  resolveSyncUniqueIndex : String → Except String SyncUniqueIndex
  /-- Only indexes of the table are named. -/
  resolved : ∀ error index, resolveSyncUniqueIndex error = .ok index → index ∈ indexes
  /-- The rows are equal in the index. -/
  sameIdentity : SyncUniqueIndex → DatabaseRow → DatabaseRow → Bool

/-- Everything outside a chunk, but for the rows. -/
structure SyncWorld where
  /-- What becomes of the operation at a tick. -/
  outcome : Nat → Outcome
  /-- What becomes of the mutation statement at a tick. -/
  statement : Nat → StatementOutcome
  /-- The secondary unique indexes of the target. -/
  uniqueIndexes : UniqueIndexes

/-- Why a chunk stopped. -/
inductive SyncStop where
  /-- An error returned to the caller. -/
  | error (message : String)
  /-- The process died; no handler runs. -/
  | crash
  /-- A loop of the program went on for longer than its bound. -/
  | diverged
  deriving DecidableEq, Repr

/-- A mutation statement that was executed. -/
inductive SyncMutation where
  /-- Rows were inserted. -/
  | inserted (rows : List DatabaseRow)
  /-- Rows were updated. -/
  | updated (rows : List DatabaseRow)
  /-- Rows were deleted. -/
  | deleted (keys : List PrimaryKey)
  deriving DecidableEq, Repr

/-- The phase a mutation belongs to. -/
def SyncMutation.kind : SyncMutation → SyncMutationPhase
  | .inserted _ => .insertMissing
  | .updated _ => .updateDivergent
  | .deleted _ => .deleteExtras

section Sessions

variable [LinearOrder PrimaryKey]

/-- The state of the sync of one table. -/
structure SyncRuntime where
  /-- The operations so far. -/
  tick : Nat
  /-- The committed rows of the target. -/
  committed : SyncRows
  /-- The rows of the target as the session sees them. -/
  working : SyncRows
  /-- The session holds table locks. -/
  locked : Bool
  /-- The durable progress rows; the row of the table itself stands under `all`. -/
  progress : SyncMutationPhase → Option SyncChunkProgress
  /-- The mutation statements executed. -/
  mutations : List SyncMutation

/-- A program of the sync. -/
abbrev Sync (α : Type) : Type := Prog SyncRuntime SyncStop α

namespace Sync

variable {α : Type}

/-- Recover from an error of the program. -/
def onError (c : Sync α) (handler : String → Sync α) : Sync α :=
  Prog.onFailure c fun
    | .error message => some (handler message)
    | .crash => none
    | .diverged => none

/-- Add to the text of an error. -/
def mapError (c : Sync α) (text : String → String) : Sync α :=
  c.onError fun message => Prog.fail (.error (text message))

/-- Stop at an error found by a check. -/
def decided (result : Except String α) : Sync α :=
  match result with
  | .ok a => pure a
  | .error message => Prog.fail (.error message)

end Sync

/-! ## Session operations -/

section Operations

variable (world : SyncWorld)

/-- An operation that the server may refuse. -/
def sessionOperation {α : Type} (answer : SyncRuntime → α) (effect : SyncRuntime → SyncRuntime) :
    Sync α := fun s =>
  let next := { s with tick := s.tick + 1 }
  match world.outcome s.tick with
  | .done => (.ok (answer s), effect next)
  | .refused message => (.error (.error message), next)
  | .crashed => (.error .crash, next)

/-- Switch autocommit; a session mutates rows only after it switched it off. -/
def setAutocommit : Sync Unit := sessionOperation world (fun _ => ()) id

/-- Lock the table; the server commits what was uncommitted. -/
def lockTableWrite : Sync Unit :=
  sessionOperation world (fun _ => ()) fun s => { s with committed := s.working, locked := true }

/-- Unlock the tables; a session with locks commits what was uncommitted. -/
def unlockTables : Sync Unit :=
  sessionOperation world (fun _ => ()) fun s =>
    { s with committed := if s.locked then s.working else s.committed, locked := false }

/-- Commit. -/
def commit : Sync Unit := sessionOperation world (fun _ => ()) fun s => { s with committed := s.working }

/-- Roll back. -/
def rollback : Sync Unit := sessionOperation world (fun _ => ()) fun s => { s with working := s.committed }

/-- Read a page of the source. -/
def readSourceRows (source : SyncRows) (request : SyncChunkReadRequest) : Sync SyncChunkPage :=
  sessionOperation world (fun _ => querySyncPageRows source request) id

/-- Read the source row of a key. -/
def readRowByPrimaryKey (source : SyncRows) (key : PrimaryKey) : Sync (Option DatabaseRow) :=
  sessionOperation world (fun _ => source.find key) id

/-- Read a page of the target. -/
def readTargetRows (request : SyncChunkReadRequest) : Sync SyncChunkPage :=
  sessionOperation world (fun s => querySyncPageRows s.working request) id

/-- Read the target row of a key. -/
def queryExactRow (key : PrimaryKey) : Sync (Option DatabaseRow) :=
  sessionOperation world (fun s => s.working.find key) id

/-! ## Mutations -/

/-- The placeholders of a prepared statement. -/
def mysqlMaxPreparedStatementPlaceholders : Nat := 65535

/-- The rows of a mutation statement. -/
def maxSyncMutationRowsPerStatement : Nat := 128

/-- The rows of a statement with so many placeholders for each row. -/
def boundedMutationCapacity (placeholdersPerRow : Nat) : Nat :=
  min (max (mysqlMaxPreparedStatementPlaceholders / max placeholdersPerRow 1) 1)
    maxSyncMutationRowsPerStatement

/-- The rows of an insert. -/
def strictInsertBatchCapacity (table : SyncTable) : Nat :=
  boundedMutationCapacity table.columns.length

/-- The rows of an update. -/
def strictUpdateBatchCapacity (table : SyncTable) : Nat :=
  boundedMutationCapacity
    ((table.columns.length - table.primaryKey.length) * (table.primaryKey.length + 1) +
      table.primaryKey.length)

/-- The rows of a delete. -/
def strictDeleteBatchCapacity (table : SyncTable) : Nat :=
  boundedMutationCapacity table.primaryKey.length

/-- The error of a statement that matched fewer rows than it should. -/
def matchedRowsError (table : SyncTable) (matched expected : Nat) : String :=
  s!"target mysql mutation on `{table.name}` matched {matched} of {expected} intended rows"

/-- The effect of a statement on the rows: the rows matched and the rows after it, or no effect if
the server finds a duplicate of a primary key. -/
abbrev StatementEffect := SyncRows → Option (Nat × SyncRows)

/-- The rows of a batch are inserted if none of their keys is taken. -/
def insertEffect (batch : List DatabaseRow) : StatementEffect := fun rows =>
  if (batch.map DatabaseRow.primaryKey).Nodup ∧
      ∀ row ∈ batch, (rows.find row.primaryKey).isNone = true then
    some (batch.length, rows.putAll batch)
  else none

/-- The rows of a batch are written in the place of the rows of their keys. -/
def updateEffect (batch : List DatabaseRow) : StatementEffect := fun rows =>
  let present := batch.filter fun row => (rows.find row.primaryKey).isSome
  some (present.length, rows.putAll present)

/-- The rows of the keys are deleted. -/
def deleteEffect (keys : List PrimaryKey) : StatementEffect := fun rows =>
  some ((keys.filter fun key => (rows.find key).isSome).length, rows.erase keys)

/-- What a failed statement reports: the error number, if the server gave one, and the message. -/
abbrev StatementFailure := Option Nat × String

/-- Execute a mutation statement and require that it matched its rows. A duplicate of a primary
key is an error of the server whatever the world decides. -/
def executeStatement (table : SyncTable) (mutation : SyncMutation) (effect : StatementEffect)
    (expected : Nat) : Sync (Except StatementFailure Unit) := fun s =>
  let next := { s with tick := s.tick + 1 }
  match world.statement s.tick with
  | .crashed => (.error .crash, next)
  | .refused code message =>
    (.ok (.error (code, "target mysql statement failed: " ++ message)), next)
  | .executed =>
    match effect s.working with
    | none =>
      (.ok (.error (some 1062, "target mysql statement failed: Duplicate entry for key 'PRIMARY'")),
        next)
    | some (matched, rows) =>
      let next := { next with working := rows, mutations := s.mutations ++ [mutation] }
      if matched = expected then (.ok (.ok ()), next)
      else (.ok (.error (none, matchedRowsError table matched expected)), next)

/-- The batches of a list. -/
def batches {β : Type} (capacity : Nat) : Nat → List β → List (List β)
  | 0, _ => []
  | _, [] => []
  | fuel + 1, rows => rows.take capacity :: batches capacity fuel (rows.drop capacity)

/-- Send the batches of a mutation one after the other; the rows from the failed batch on are
reported. -/
def executeMutationBatches (table : SyncTable) (mutation : List DatabaseRow → SyncMutation)
    (effect : List DatabaseRow → StatementEffect) :
    List (List DatabaseRow) → Sync (Except SyncMutationFailure Unit)
  | [] => pure (.ok ())
  | batch :: rest => do
    match ← executeStatement world table (mutation batch) (effect batch) batch.length with
    | .ok () => executeMutationBatches table mutation effect rest
    | .error (code, message) => pure (.error ⟨code, message, batch, rest.flatten⟩)

/-- Update rows. -/
def updateRows (table : SyncTable) (rows : List DatabaseRow) :
    Sync (Except SyncMutationFailure Unit) :=
  executeMutationBatches world table .updated updateEffect
    (batches (strictUpdateBatchCapacity table) rows.length rows)

/-- Insert rows. -/
def insertRows (table : SyncTable) (rows : List DatabaseRow) :
    Sync (Except SyncMutationFailure Unit) :=
  executeMutationBatches world table .inserted insertEffect
    (batches (strictInsertBatchCapacity table) rows.length rows)

/-- Delete the rows of some keys. -/
def deleteRows (table : SyncTable) (keys : List PrimaryKey) : Sync Unit :=
  Prog.forEach (batches (strictDeleteBatchCapacity table) keys.length keys) fun batch => do
    match ← executeStatement world table (.deleted batch) (deleteEffect batch) batch.length with
    | .ok () => pure ()
    | .error (_, message) => Prog.fail (.error message)

/-! ## Unique owners -/

/-- The index a duplicate error names. -/
def loadUniqueIndex (error : String) : Sync SyncUniqueIndex := do
  sessionOperation world (fun _ => ()) id
  Sync.decided (world.uniqueIndexes.resolveSyncUniqueIndex error)

/-- The answer of a query for at most one row. -/
def decodeOptionalExactRow (table : SyncTable) (rows : List DatabaseRow) (endpoint : String) :
    Except String (Option DatabaseRow) :=
  match rows with
  | [] => .ok none
  | [row] => .ok (some row)
  | rows => .error s!"{endpoint} exact-row query returned {rows.length} rows for `{table.name}`"

/-- The target row that owns the values of a row in an index. -/
def queryUniqueOwner (table : SyncTable) (index : SyncUniqueIndex) (intended : DatabaseRow) :
    Sync (Option DatabaseRow) := do
  if index.columns.isEmpty then
    Prog.fail (.error
      s!"secondary unique index `{index.name}` has no columns for `{table.name}`")
  let _ ← Sync.decided (requiredNonNullValues intended index.columns "unique index")
  let rows ← sessionOperation world
    (fun s => (s.working.rows.filter (world.uniqueIndexes.sameIdentity index intended)).take 2) id
  Sync.decided (decodeOptionalExactRow table rows "target unique-owner")

/-- The owner is another row with the same texts in the index. -/
def validateUniqueOwner (table : SyncTable) (index : SyncUniqueIndex)
    (intended owner : DatabaseRow) : Except String Unit := do
  if owner.primaryKey = intended.primaryKey then
    .error s!"unique index `{index.name}` owner has the intended primary key for `{table.name}`"
  let intendedIdentity ← index.valuesOf intended "intended"
  let ownerIdentity ← index.valuesOf owner "target owner"
  if ownerIdentity ≠ intendedIdentity then
    .error (s!"unique index `{index.name}` target owner identity disagrees with intended row " ++
      s!"for `{table.name}`")

/-- Find the owners of the rows of a failed batch, each of them once. -/
def uniqueOwnerConflicts (table : SyncTable) (index : SyncUniqueIndex) :
    List DatabaseRow → List PrimaryKey → Sync (List SyncUniqueOwnerConflict)
  | [], _ => pure []
  | intended :: rest, owners => do
    match ← queryUniqueOwner world table index intended with
    | none => uniqueOwnerConflicts table index rest owners
    | some owner =>
      if owner.primaryKey = intended.primaryKey then uniqueOwnerConflicts table index rest owners
      else
        Sync.decided (validateUniqueOwner table index intended owner)
        if owner.primaryKey ∈ owners then
          Prog.fail (.error (s!"secondary unique-owner evidence is ambiguous for `{table.name}` " ++
            s!"index `{index.name}`"))
        else
          let conflicts ← uniqueOwnerConflicts table index rest (owner.primaryKey :: owners)
          pure (⟨index, intended, owner⟩ :: conflicts)

/-- The conflicts behind a duplicate error; there is at least one. -/
def inspectUniqueOwnerConflicts (table : SyncTable) (failure : SyncMutationFailure) :
    Sync (List SyncUniqueOwnerConflict) := do
  if failure.mysqlCode ≠ some 1062 then Prog.fail (.error failure.message)
  let index ← loadUniqueIndex world failure.message
  let conflicts ← uniqueOwnerConflicts world table index failure.failedBatch []
  if conflicts.isEmpty then
    Prog.fail (.error (s!"secondary unique-owner evidence is absent for `{table.name}` " ++
      s!"index `{index.name}`"))
  pure conflicts

/-- The row found must be the row expected. -/
def verifyExactRow (actual expected : Option DatabaseRow) (label : String) : Sync Unit :=
  if actual = expected then pure () else Prog.fail (.error s!"{label} verification failed")

/-- Bring the owner to its source row or delete it, and verify that it gave up the values. -/
def reconcileUniqueOwner (table : SyncTable) (conflict : SyncUniqueOwnerConflict)
    (action : SyncUniqueOwnerAction) : Sync Unit := do
  match action with
  | .update row =>
    match ← updateRows world table [row] with
    | .ok () => pure ()
    | .error failure => Prog.fail (.error failure.message)
    verifyExactRow (← queryExactRow world conflict.owner.primaryKey) (some row)
      "updated unique owner"
  | .delete =>
    deleteRows world table [conflict.owner.primaryKey]
    verifyExactRow (← queryExactRow world conflict.owner.primaryKey) none "deleted unique owner"
  match ← queryUniqueOwner world table conflict.index conflict.intended with
  | none => pure ()
  | some _ =>
    Prog.fail (.error (s!"reconciled target owner still owns `{conflict.index.name}` identity " ++
      s!"for `{table.name}`"))

/-- Verify rows of the target. -/
def verifyRows (rows : List DatabaseRow) : Sync Unit :=
  Prog.forEach rows fun expected => do
    verifyExactRow (← queryExactRow world expected.primaryKey) (some expected)
      "mutated intended row"

/-! ## Progress -/

/-- The complete progress row of the table itself. -/
def completeRowsProgress (s : SyncRuntime) : Option SyncChunkProgress :=
  (s.progress .all).filter SyncChunkProgress.complete

/-- The stored progress of a phase; a complete row of the table stands for all its phases. -/
def storedProgress (phase : SyncMutationPhase) (s : SyncRuntime) : Option SyncChunkProgress :=
  match completeRowsProgress s with
  | some complete => some complete
  | none => s.progress phase

/-- Load the progress of a phase. -/
def loadProgressRow (phase : SyncMutationPhase) : Sync (Option SyncChunkProgress) :=
  sessionOperation world (storedProgress phase) id

/-- Save the progress of a phase; the phases of a table whose own row is complete are closed. -/
def saveProgressRow (phase : SyncMutationPhase) (progress : SyncChunkProgress) : Sync Unit := do
  let closed ← Prog.reads fun s => phase != .all && (completeRowsProgress s).isSome
  if closed then
    Prog.fail (.error (s!"cannot mutate completed legacy Rows progress for run " ++
      s!"`{progress.runId}` table `{progress.table}`"))
  else
    sessionOperation world (fun _ => ()) fun s =>
      { s with progress := Function.update s.progress phase (some progress) }

end Operations

end Sessions

end BinlogCdc
