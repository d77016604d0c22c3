import BinlogCdc.Sync.Session

/-!
# One chunk of a table sync

The chunk loop of the row sync. A chunk reads the next window of source rows, compares it
with the target rows between the cursor and the last key of the window, page by page, and
deletes, updates and inserts what its phase selects; once the source has no more rows it
works through the rest of the target. The chunk is committed before its progress is saved.
-/

namespace BinlogCdc

/-! ## Comparison of rows -/

/-- The rows of a window by key, in the order of the key texts. -/
def indexRows (rows : List DatabaseRow) : List DatabaseRow :=
  rows.insertionSort fun row row' => row.primaryKey.values ≤ row'.primaryKey.values

/-- Two rows of a key differ in a column that is not of the key. -/
def rowsDiverge (table : SyncTable) (source target : DatabaseRow) : Bool :=
  (table.columns.filter fun column => !table.primaryKey.contains column).any fun column =>
    source.get column != target.get column

/-- What a page of the target asks for. -/
structure TargetPageChanges where
  /-- The keys to delete. -/
  deletes : List PrimaryKey
  /-- The source rows to write. -/
  updates : List DatabaseRow

/-- Compare a page of target rows with the source rows left; a source row is compared once. -/
def reconcileTargetPage (table : SyncTable) :
    List DatabaseRow → List DatabaseRow → TargetPageChanges × List DatabaseRow
  | sourceByKey, [] => (⟨[], []⟩, sourceByKey)
  | sourceByKey, targetRow :: rest =>
    match sourceByKey.find? fun row => decide (row.primaryKey = targetRow.primaryKey) with
    | none =>
      let (changes, left) := reconcileTargetPage table sourceByKey rest
      ({ changes with deletes := targetRow.primaryKey :: changes.deletes }, left)
    | some sourceRow =>
      let (changes, left) := reconcileTargetPage table
        (sourceByKey.filter fun row => decide (row.primaryKey ≠ targetRow.primaryKey)) rest
      if rowsDiverge table sourceRow targetRow then
        ({ changes with updates := sourceRow :: changes.updates }, left)
      else (changes, left)

/-- What a window asks for; its deletes are already done. -/
structure ChunkChanges where
  /-- The rows deleted. -/
  deletes : Nat
  /-- The source rows to write. -/
  updates : List DatabaseRow
  /-- The source rows to insert. -/
  inserts : List DatabaseRow

/-- Count a window. -/
def recordProgress (progress : SyncChunkProgress) (sourceRows : Nat) (changes : ChunkChanges) :
    SyncChunkProgress :=
  { progress with
    chunks := progress.chunks + 1
    rowsScanned := progress.rowsScanned + sourceRows
    inserts := progress.inserts + changes.inserts.length
    updates := progress.updates + changes.updates.length
    deletes := progress.deletes + changes.deletes }

/-- The loaded progress must be of the run and the table. -/
def validateProgressIdentity (config : SyncChunkConfig) (progress : SyncChunkProgress) :
    Except String Unit :=
  if progress.runId ≠ config.runId then
    .error (s!"loaded sync progress run ID mismatch for table `{config.table.name}`: " ++
      s!"expected `{config.runId}`, found `{progress.runId}`")
  else if progress.table ≠ config.table.name then
    .error (s!"loaded sync progress table mismatch for run `{config.runId}`: " ++
      s!"expected `{config.table.name}`, found `{progress.table}`")
  else .ok ()

/-- The progress before the first chunk. -/
def initialProgress (config : SyncChunkConfig) : SyncChunkProgress where
  runId := config.runId
  table := config.table.name
  lastPrimaryKey := none
  complete := false
  chunks := 0
  rowsScanned := 0
  inserts := 0
  updates := 0
  deletes := 0

/-! ## Conflicts of secondary unique indexes -/

/-- The kinds of strict mutations. -/
inductive MutationKind where
  /-- Missing rows are inserted. -/
  | insert
  /-- Divergent rows are updated. -/
  | update
  deriving DecidableEq, Repr

/-- A text with its quotes, as a debug format shows it. -/
def debugText (text : String) : String := "\"" ++ text ++ "\""

/-- The identity of a conflict: the index, the key to write and the key of the owner. -/
abbrev RepairKey := String × PrimaryKey × PrimaryKey

/-- The identity of a conflict. -/
def SyncUniqueOwnerConflict.repairKey (conflict : SyncUniqueOwnerConflict) : RepairKey :=
  (conflict.index.name, conflict.intended.primaryKey, conflict.owner.primaryKey)

/-- The owner is another row and owns the values of the intended row. -/
def validateUniqueOwnerConflict (table : String) (conflict : SyncUniqueOwnerConflict) :
    Except String (List String) := do
  if conflict.owner.primaryKey = conflict.intended.primaryKey then
    .error (s!"secondary unique owner for `{table}` index `{conflict.index.name}` " ++
      "has the intended primary key")
  let intendedIdentity ← conflict.index.valuesOf conflict.intended "intended"
  let targetIdentity ← conflict.index.valuesOf conflict.owner "target owner"
  if targetIdentity = intendedIdentity then .ok intendedIdentity
  else
    .error s!"secondary unique owner for `{table}` index `{conflict.index.name}` has ambiguous identity"

/-- The owner has other values in the source. -/
def validateCurrentSourceOwner (table : String) (conflict : SyncUniqueOwnerConflict)
    (sourceOwner : DatabaseRow) (intendedIdentity : List String) : Except String Unit := do
  if sourceOwner.primaryKey ≠ conflict.owner.primaryKey then
    .error (s!"current source owner primary key disagrees for `{table}` index " ++
      s!"`{conflict.index.name}`")
  if sourceOwner.values.map Prod.fst ≠ conflict.intended.values.map Prod.fst then
    .error s!"current source owner row is incomplete for `{table}` index `{conflict.index.name}`"
  let sourceIdentity ← conflict.index.valuesOf sourceOwner "current source owner"
  if sourceIdentity ≠ intendedIdentity then .ok ()
  else
    .error (s!"current source owner legitimately owns `{conflict.index.name}` identity for " ++
      s!"`{table}`")

/-- An owner is brought to its source row, or deleted if the source has none. -/
def planUniqueOwnerAction (table : String) (conflict : SyncUniqueOwnerConflict)
    (sourceOwner : Option DatabaseRow) : Except String SyncUniqueOwnerAction := do
  let intendedIdentity ← validateUniqueOwnerConflict table conflict
  match sourceOwner with
  | none => .ok .delete
  | some sourceOwner =>
    validateCurrentSourceOwner table conflict sourceOwner intendedIdentity
    .ok (.update sourceOwner)

section Chunk

variable [LinearOrder PrimaryKey] (world : SyncWorld) (config : SyncChunkConfig) (source : SyncRows)

/-- Resolve a conflict, once for each identity. -/
def reconcileUniqueOwnerConflict (reconciled : List RepairKey)
    (conflict : SyncUniqueOwnerConflict) : Sync Unit := do
  if conflict.repairKey ∈ reconciled then
    Prog.fail (.error (s!"secondary unique conflict repeated for `{config.table.name}` index " ++
      s!"`{conflict.index.name}` intended primary key [" ++
      ", ".intercalate (conflict.intended.primaryKey.values.map debugText) ++ "]"))
  let sourceOwner ← (readRowByPrimaryKey world source conflict.owner.primaryKey).mapError
    fun error => s!"read current source owner for `{config.table.name}` index " ++
      s!"`{conflict.index.name}`: {error}"
  let action ← Sync.decided (planUniqueOwnerAction config.table.name conflict sourceOwner)
  (reconcileUniqueOwner world config.table conflict action).mapError
    fun error => s!"reconcile secondary unique owner in `{config.table.name}` index " ++
      s!"`{conflict.index.name}`: {error}"

/-- Resolve the conflicts of a failed batch one after the other. -/
def reconcileUniqueOwnerConflicts (reconciled : List RepairKey) :
    List SyncUniqueOwnerConflict → Sync (List RepairKey)
  | [] => pure reconciled
  | conflict :: rest => do
    reconcileUniqueOwnerConflict world config source reconciled conflict
    reconcileUniqueOwnerConflicts (conflict.repairKey :: reconciled) rest

/-- Send a mutation; only a duplicate error is left to the caller. -/
def tryStrictMutation (rows : List DatabaseRow) (kind : MutationKind) :
    Sync (Option SyncMutationFailure) := do
  let (result, operation) ← match kind with
    | .insert => do
      pure (← insertRows world config.table rows, "insert missing rows into")
    | .update => do
      pure (← updateRows world config.table rows, "update divergent rows in")
  match result with
  | .ok () => pure none
  | .error failure =>
    if failure.mysqlCode = some 1062 then pure (some failure)
    else Prog.fail (.error s!"{operation} `{config.table.name}`: {failure.message}")

/-- Send a mutation until no duplicate error comes back. The intended rows of the conflicts
resolved on the way are returned; the last row of a key wins. -/
def retryStrictMutations (kind : MutationKind) :
    Nat → List DatabaseRow → List RepairKey → List DatabaseRow → Sync (List DatabaseRow)
  | 0, _, _, _ => Prog.fail .diverged
  | fuel + 1, pendingRows, reconciled, intendedRows => do
    match ← tryStrictMutation world config pendingRows kind with
    | none => pure intendedRows
    | some failure =>
      let conflicts ← (inspectUniqueOwnerConflicts world config.table failure).mapError
        fun error => s!"inspect secondary unique conflict in `{config.table.name}`: {error}"
      let reconciled ← reconcileUniqueOwnerConflicts world config source reconciled conflicts
      retryStrictMutations kind fuel failure.retryRows reconciled
        (conflicts.foldl (fun rows conflict =>
          rows.filter (fun row => decide (row.primaryKey ≠ conflict.intended.primaryKey)) ++
            [conflict.intended]) intendedRows)

/-- A bound on the rounds of a mutation: an index, a row to write and an owner for each. -/
def retryBound (rows : List DatabaseRow) (s : SyncRuntime) : Nat :=
  world.uniqueIndexes.indexes.length * (rows.length * (s.working.rows.length + rows.length)) + 1

/-- Write rows and verify those that a conflict held up. -/
def applyStrictMutations (rows : List DatabaseRow) (kind : MutationKind) : Sync Unit :=
  if rows.isEmpty then pure ()
  else do
    let bound ← Prog.reads (retryBound world rows)
    let intendedRows ← retryStrictMutations world config source kind bound rows [] []
    if intendedRows.isEmpty then pure ()
    else
      (verifyRows world (indexRows intendedRows)).mapError
        fun error => s!"verify reconciled rows in `{config.table.name}`: {error}"

/-- Write the changes of a window. -/
def applySourceChanges (changes : ChunkChanges) : Sync Unit := do
  applyStrictMutations world config source changes.updates .update
  applyStrictMutations world config source changes.inserts .insert

/-! ## Windows and the tail -/

variable (phase : SyncMutationPhase)

/-- Delete rows that only the target has. -/
def deleteTargetOnlyRows (keys : List PrimaryKey) : Sync Unit :=
  if keys.isEmpty then pure ()
  else
    (deleteRows world config.table keys).mapError
      fun error => s!"delete target-only rows from `{config.table.name}`: {error}"

/-- Delete the rows of a page that only the target has, if the phase deletes, and count them. -/
def deletePage (deletes : Nat) (keys : List PrimaryKey) : Sync Nat :=
  if phase.includes .deleteExtras then do
    deleteTargetOnlyRows world config keys
    pure (deletes + keys.length)
  else pure deletes

/-- Compare the target pages of a window with the source rows left in it. -/
def reconcileTargetPages (endAt : PrimaryKey) :
    Nat → Option PrimaryKey → List DatabaseRow → ChunkChanges → Sync ChunkChanges
  | 0, _, _, _ => Prog.fail .diverged
  | fuel + 1, startAfter, sourceByKey, changes => do
    let page ← (readTargetRows world ⟨startAfter, some endAt, config.chunkSize⟩).mapError
      fun error => s!"read target chunk for `{config.table.name}`: {error}"
    let (pageChanges, left) := reconcileTargetPage config.table sourceByKey page.rows
    let deletes ← deletePage world config phase changes.deletes pageChanges.deletes
    let updates :=
      if phase.includes .updateDivergent then changes.updates ++ pageChanges.updates
      else changes.updates
    if !page.hasMore then
      pure ⟨deletes, updates, if phase.includes .insertMissing then left else changes.inserts⟩
    else
      reconcileTargetPages endAt fuel (page.rows.getLast?.map DatabaseRow.primaryKey) left
        ⟨deletes, updates, changes.inserts⟩

/-- Work on a window of source rows. -/
def applySourceWindow (progress : SyncChunkProgress) (startAfter : Option PrimaryKey)
    (sourceRows : List DatabaseRow) (endAt : PrimaryKey) : Sync SyncChunkProgress := do
  let bound ← Prog.reads fun s => s.working.rows.length + 1
  let changes ← reconcileTargetPages world config phase endAt bound startAfter
    (indexRows sourceRows) ⟨0, [], []⟩
  applySourceChanges world config source changes
  pure (recordProgress { progress with lastPrimaryKey := some endAt, complete := false }
    sourceRows.length changes)

/-- Work on the target rows after the last source row. -/
def applyTargetTail (progress : SyncChunkProgress) (startAfter : Option PrimaryKey) :
    Sync SyncChunkProgress := do
  let page ← (readTargetRows world ⟨startAfter, none, config.chunkSize⟩).mapError
    fun error => s!"read target tail for `{config.table.name}`: {error}"
  let primaryKeys := page.rows.map DatabaseRow.primaryKey
  if phase.includes .deleteExtras && !primaryKeys.isEmpty then
    (deleteRows world config.table primaryKeys).mapError
      fun error => s!"delete target-only rows from `{config.table.name}`: {error}"
  let progress := { progress with complete := !page.hasMore, chunks := progress.chunks + 1 }
  if phase.includes .deleteExtras then
    pure { progress with deletes := progress.deletes + page.rows.length }
  else
    match primaryKeys.getLast? with
    | some lastKey => pure { progress with lastPrimaryKey := some lastKey }
    | none => pure progress

/-- Work on the next window, or on the tail once the source has no more rows. -/
def applyLockedChunk (progress : SyncChunkProgress) : Sync SyncChunkProgress := do
  let startAfter := progress.lastPrimaryKey
  let page ← (readSourceRows world source ⟨startAfter, none, config.chunkSize⟩).mapError
    fun error => s!"read source chunk for `{config.table.name}`: {error}"
  let nextProgress ← match page.rows.getLast? with
    | none => applyTargetTail world config phase progress startAfter
    | some last =>
      applySourceWindow world config source phase progress startAfter page.rows last.primaryKey
  (commit world).mapError fun error => s!"commit target chunk for `{config.table.name}`: {error}"
  pure nextProgress

/-- Load the progress, or start. -/
def loadProgress : Sync SyncChunkProgress := do
  let loaded ← (loadProgressRow world phase).mapError fun error =>
    s!"load sync progress for run `{config.runId}` table `{config.table.name}`: {error}"
  match loaded with
  | some progress => do
    Sync.decided (validateProgressIdentity config progress)
    pure progress
  | none => pure (initialProgress config)

/-- Prepare the target session. -/
def prepareTargetChunk : Sync Unit := do
  (setAutocommit world).mapError fun error =>
    s!"disable autocommit for target table `{config.targetDatabase}`.`{config.table.name}`: {error}"
  (lockTableWrite world).mapError fun error =>
    s!"lock target table `{config.targetDatabase}`.`{config.table.name}` for write: {error}"

/-- The error of a step of the clean-up, if it fails. -/
def cleanupError (c : Sync Unit) : Sync (Option String) :=
  Sync.onError (do c; pure none) fun error => pure (some error)

/-- Roll back and unlock after an error; what fails there is added to the error. -/
def rollbackAndUnlock (primaryError : String) : Sync String := do
  let rolledBack ← cleanupError (rollback world)
  let unlocked ← cleanupError (unlockTables world)
  pure ("; ".intercalate ([primaryError] ++
    (rolledBack.map ("rollback failed: " ++ ·)).toList ++
    (unlocked.map ("unlock tables failed: " ++ ·)).toList))

/-- Unlock after an error. -/
def unlockAfterError (primaryError : String) : Sync String := do
  match ← cleanupError (unlockTables world) with
  | none => pure primaryError
  | some error => pure s!"{primaryError}; unlock tables failed: {error}"

/-- Save the progress of a committed chunk and unlock. -/
def saveProgressAndUnlock (progress : SyncChunkProgress) : Sync SyncChunkProgress := do
  (saveProgressRow world phase progress).onError fun error => do
    let message ← unlockAfterError world
      (s!"save sync progress for run `{config.runId}` table `{config.table.name}`: {error}")
    Prog.fail (.error message)
  (unlockTables world).mapError fun error =>
    s!"unlock target table `{config.targetDatabase}`.`{config.table.name}` after durable " ++
      s!"progress: {error}"
  pure progress

/-- Perform the next chunk of a table in a phase. -/
def syncNextChunkWithPhase : Sync SyncChunkProgress := do
  let progress ← loadProgress world config phase
  if progress.complete then pure progress
  else
    prepareTargetChunk world config
    let progress ← (applyLockedChunk world config source phase progress).onError fun error => do
      let message ← rollbackAndUnlock world error
      Prog.fail (.error message)
    saveProgressAndUnlock world config phase progress

end Chunk

end BinlogCdc
