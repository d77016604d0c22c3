import BinlogCdc.Stream.Journal

/-!
# The DDL handler and event dispatch

A DDL event the translator accepts is journaled, executed once, verified against the
expected target schema and checkpointed together with its journal row; after a stop
the handler continues from the state of the row. A DDL event without a translation is
recorded and blocks the stream. Every other event goes to the transactional handlers.
-/

namespace BinlogCdc

/-! ## Which events are handled -/

/-- The DDL event of a query event. -/
def ddlEvent (sourceIdentity currentFile : String) (header : EventHeader) (query : QueryEvent) :
    DdlEvent where
  sourceIdentity := s!"{sourceIdentity}#server-id={header.serverId}"
  sourceServerId := header.serverId
  binlogFile := currentFile
  eventStartPosition := header.nextEventPosition - header.eventLength
  eventEndPosition := header.nextEventPosition
  schemaName := query.databaseName
  rawSql := query.sqlStatement

section Admission

variable (semantics : DdlSemantics)

/-- The SQL mode of a query, if its session state can be read. -/
def sourceSqlMode (query : QueryEvent) : Option (Option Nat) :=
  (semantics.decodeQueryCharsetContext query.statusVariables).toOption

/-- The translator accepts the query. -/
def handlesAutomatically (state : StructuredEventState) (query : QueryEvent) : Bool :=
  let sql := query.sqlStatement
  let supportsSourceOnlyProcedure := semantics.supportsSourceOnlyReleaseMoveProcedureCreate sql
  let sourceMode := sourceSqlMode semantics query
  let supportsTransformation := sourceMode.any fun mode =>
    semantics.supportsDdlTransformation sql supportsSourceOnlyProcedure mode
  let supportedByRuntime := supportsTransformation ||
    (isAutomaticallyHandledSchemaChange sql.toList &&
      sourceMode.any fun mode => semantics.supportsAutomaticDdlOperation sql mode)
  let containsDisallowedQualification := !supportsSourceOnlyProcedure &&
    match sourceMode.bind noBackslashEscapes with
    | none => sql.toList.contains backslash ||
        queryContainsQualifiedIdentifierWithMode sql.toList false
    | some noEscapes => queryContainsQualifiedIdentifierWithMode sql.toList noEscapes
  state.shouldApplySchema query.databaseName && !containsDisallowedQualification &&
    supportedByRuntime

/-- The query is a schema change of the source schema that needs an operator. -/
def needsManualDdl (state : StructuredEventState) (query : QueryEvent) : Bool :=
  let sql := query.sqlStatement.toList
  let noEscapes := (sourceSqlMode semantics query).bind noBackslashEscapes
  let mayTargetSourceSchema := state.shouldApplySchema query.databaseName ||
    query.databaseName.isEmpty || (noEscapes.isNone && sql.contains backslash) ||
    state.sourceDatabase.any fun schema =>
      queryReferencesSchemaWithMode sql schema.toList (noEscapes.getD false)
  isSchemaChangingStatement sql && mayTargetSourceSchema &&
    !handlesAutomatically semantics state query

end Admission

/-- The outcome of a resolved DDL event. -/
def resolvedDdlOutcome (event : DdlEvent) : StructuredEventOutcome :=
  ⟨.commitTransaction, some ⟨event.binlogFile, event.eventEndPosition⟩⟩

/-! ## Reconciliation -/

/-- What the state of a prepared row allows. -/
inductive DdlReplayAction where
  /-- Prepare the row and execute the statement. -/
  | prepareAndExecute
  /-- Only the checkpoint is missing. -/
  | checkpointOnly
  /-- Nothing is missing. -/
  | alreadyCheckpointed
  deriving DecidableEq, Repr

/-- The action for a status; prepared and blocked rows are handled before. -/
def replayAction (event : DdlEvent) (status : Option DdlReplayStatus) :
    Except String DdlReplayAction :=
  match status with
  | none => .ok .prepareAndExecute
  | some .translationPending => .ok .prepareAndExecute
  | some .prepared =>
    .error (s!"ambiguous automatic DDL at {event.binlogFile}:{event.eventStartPosition}; " ++
      "inspect target state before resolving journal entry")
  | some .blocked =>
    .error (s!"blocked automatic DDL at {event.binlogFile}:{event.eventStartPosition} " ++
      "requires operator resolution")
  | some .applied => .ok .checkpointOnly
  | some .checkpointed => .ok .alreadyCheckpointed

/-- What the observed target says about a prepared event. -/
inductive PreparedReconciliation where
  /-- The statement was executed. -/
  | provenApplied
  /-- It cannot be told. -/
  | blocked
  deriving DecidableEq, Repr

/-- A prepared event is proven applied only by a state the statement alone leads to. -/
def reconcilePrepared (evidence : DdlSemanticEvidence) (observedState : String) :
    PreparedReconciliation :=
  if evidence.preState ≠ evidence.expectedPostState ∧
      observedState = evidence.expectedPostState then .provenApplied
  else .blocked

/-- Why a prepared event stays blocked. -/
def preparedReconciliationBlockReason (evidence : DdlSemanticEvidence) (observedState : String) :
    String :=
  if evidence.preState = evidence.expectedPostState then
    "immutable pre-state and expected post-state are identical"
  else if observedState = evidence.preState then
    "observed target still matches immutable pre-state"
  else if observedState = evidence.expectedPostState then
    "observed target matches expected post-state"
  else
    "pre-state mismatch: observed target matches neither immutable pre-state nor expected " ++
      "post-state"

/-- A target statement is not needed when the target already has the expected state. -/
def suppressTargetSqlForConvergedState (transformation : DdlTransformation)
    (evidence : DdlSemanticEvidence) : DdlTransformation :=
  if evidence.preState = evidence.expectedPostState then { transformation with targetSql := none }
  else transformation

/-- The version of the translator. -/
def ddlTransformationVersion : String := "mariadb-mysql8-v1"

/-! ## Legacy JSON alias checks -/

/-- Name every anonymous JSON alias check after its column, as the legacy rendering did. -/
def nameJsonAliasChecksFrom (fuel : Nat) (sql : Text) : Text :=
  let marker := "CHECK (JSON_VALID(`".toList
  let closing := "`))".toList
  match fuel with
  | 0 => sql
  | fuel + 1 =>
    match Text.splitOnce marker sql with
    | none => sql
    | some (head, tail) =>
      match Text.splitOnce closing tail with
      | none => sql
      | some (column, rest) =>
        let constraint :=
          if ", ".toList.isSuffixOf head || ", ADD ".toList.isSuffixOf head then
            "CONSTRAINT `".toList ++ column ++ "` ".toList
          else []
        head ++ constraint ++ marker ++ column ++ closing ++ nameJsonAliasChecksFrom fuel rest

/-- Name every anonymous JSON alias check after its column. -/
def nameJsonAliasChecks (sql : String) : String :=
  String.ofList (nameJsonAliasChecksFrom sql.length sql.toList)

/-- The evidence with the corrected statement of a legacy event. -/
def correctedJsonAliasEvidence (semantics : DdlSemantics) (rawSql : String)
    (recorded fresh : DdlSemanticEvidence) (replacement : DdlTransformation) :
    Except String DdlSemanticEvidence :=
  if !semantics.isLegacyJsonCheckCollisionEvent rawSql ||
      recorded.transformationVersion != replacement.version ||
      recorded.preState == recorded.expectedPostState ||
      recorded.preState != fresh.preState ||
      recorded.expectedPostState != fresh.expectedPostState ||
      recorded.canonicalAst != fresh.canonicalAst then
    .error "JSON alias recovery requires exact event and unchanged semantic evidence"
  else
    match replacement.targetSql with
    | none => .error "JSON alias recovery lacks corrected SQL"
    | some corrected =>
      let old := nameJsonAliasChecks corrected
      if old == corrected || recorded.generatedSql != some old then
        .error "JSON alias recovery requires exact legacy named CHECK collision"
      else
        .ok { recorded with
          transformationVersion := replacement.version, generatedSql := some corrected }

section Handler

variable (world : World) (config : StreamConfig)

/-! ## Checkpointing -/

/-- The stored checkpoint must not be after the coordinate. -/
def ensureResolvedDdlCheckpointAdvances (next : BinlogCoordinate) : Stream Unit := do
  if config.checkpoint.store then
    let current ← loadCheckpoint world
    decided (ensureCoordinateAdvances current next)
  else pure ()

/-- What the checkpoint transaction does after its begin: lock the checkpoint, move the journal
row and the checkpoint, and commit. -/
def checkpointDdlEvent (event : DdlEvent) (checkpoint : Checkpoint) : Stream Unit := do
  let current ← operate world .target (fun _ => .lockCheckpoint)
    fun target => .ok (target.view.checkpoint, target)
  decided (ensureAutomaticDdlCheckpointPredecessor current event)
  transition world .target (.markCheckpointed event) fun target =>
    target.markCheckpointed event
  transition world .target (.saveCheckpoint checkpoint) fun target =>
    target.saveCheckpoint checkpoint
  transition world .target .commit Target.commit

/-- Move the checkpoint past the event and its journal row to checkpointed, in one target
transaction. -/
def finalizeAutomaticDdlCheckpoint (event : DdlEvent) : Stream Unit := do
  let coordinate : BinlogCoordinate := ⟨event.binlogFile, event.eventEndPosition⟩
  ensureResolvedDdlCheckpointAdvances world config coordinate
  match config.checkpoint.table, config.checkpoint.name with
  | some _, some _ =>
    let checkpoint := coordinateCheckpoint coordinate "QueryEvent"
    transition world .target .begin Target.begin
    Prog.onError (checkpointDdlEvent world event checkpoint) fun error => do
      transition world .target .rollback Target.rollback
      stopWith error
    Prog.update fun s => { s with currentFile := coordinate.file }
  | _, _ =>
    stopWith (.checkpoint "automatic DDL requires target-transaction checkpoint storage")

/-! ## Recording and verifying -/

/-- Record an event without a translation, unless it is recorded so already. -/
def ensureTranslationPending (event : DdlEvent) : Stream Unit := do
  match ← readStatus world event with
  | none => recordTranslationPending world event
  | some .translationPending => pure ()
  | some status =>
    stopWith (.statement (s!"cannot replace automatic DDL journal status {status.asStr} with " ++
      s!"translation_pending at {event.binlogFile}:{event.eventStartPosition}"))

/-- Capture the evidence of an event, or record it without a translation. -/
def captureAutomaticDdlEvidence (query : QueryEvent) (event : DdlEvent) :
    Stream DdlSemanticEvidence := do
  match ← ask world (fun _ => .inventory) fun inventory =>
      inventory.captureEvidence event.rawSql event.binlogFile event.eventEndPosition
        (some query.statusVariables) with
  | .ok evidence => pure evidence
  | .error error =>
    ensureTranslationPending world event
    stopWith (.ddlBlocked (s!"DDL transformation evidence unavailable at {event.binlogFile}:" ++
      s!"{event.eventStartPosition}: {error}"))

/-- The target must have reached the expected state. -/
def verifyAutomaticDdlPostcondition (event : DdlEvent) (evidence : DdlSemanticEvidence) :
    Stream Unit := do
  let observed ← observeTargetState world event (some evidence)
  if observed = evidence.expectedPostState then pure ()
  else
    markBlocked world event
    stopWith (.ddlBlocked (s!"automatic DDL postcondition mismatch at {event.binlogFile}:" ++
      s!"{event.eventStartPosition}"))

/-- Execute the target statement of an event, if there is one. -/
def executeTransformedDdl (event : DdlEvent) (transformation : DdlTransformation) :
    Stream Unit :=
  match transformation.targetSql with
  | none => pure ()
  | some targetSql =>
    transition world
      (fun error => .statement (s!"failed transformed DDL at {event.binlogFile}:" ++
        s!"{event.eventStartPosition} version={transformation.version} " ++
        s!"target_sql={targetSql}: {error}"))
      (.executeDdl event targetSql) fun target => target.executeDdl event targetSql

/-- The transformation and the evidence of an event. -/
def transformAutomaticDdl (query : QueryEvent) (event : DdlEvent) :
    Stream (DdlTransformation × DdlSemanticEvidence) := do
  let mode ← decided ((world.semantics.decodeQueryCharsetContext query.statusVariables).mapError
    fun error => .ddlBlocked s!"DDL SQL mode context: {error}")
  if world.semantics.createTableRequiresEvidenceSql event.rawSql mode then
    let evidence ← captureAutomaticDdlEvidence world query event
    match evidence.generatedSql with
    | none =>
      stopWith (.statement "CREATE TABLE evidence is missing deterministic generated SQL")
    | some targetSql => pure (⟨ddlTransformationVersion, some targetSql⟩, evidence)
  else
    match ← ask world (fun _ => .inventory) fun inventory =>
        inventory.transformSql event.rawSql (some query.statusVariables) with
    | .error error =>
      ensureTranslationPending world event
      stopWith (.ddlBlocked error)
    | .ok transformation =>
      let evidence ← captureAutomaticDdlEvidence world query event
      pure (transformation, evidence)

/-- Journal an event, execute it, verify it and checkpoint it. -/
def prepareAndExecuteAutomaticDdl (query : QueryEvent) (event : DdlEvent) : Stream Unit := do
  let (transformation, evidence) ← transformAutomaticDdl world query event
  let transformation := suppressTargetSqlForConvergedState transformation evidence
  let evidence := { evidence with
    transformationVersion := transformation.version, generatedSql := transformation.targetSql }
  prepare world event evidence
  executeTransformedDdl world event transformation
  verifyAutomaticDdlPostcondition world event evidence
  markApplied world event
  finalizeAutomaticDdlCheckpoint world config event

/-! ## Recovery -/

/-- The evidence of a row that must have some. -/
def readBlockedEvidence (event : DdlEvent) : Stream DdlSemanticEvidence := do
  match ← readEvidence world event with
  | some evidence => pure evidence
  | none =>
    stopWith (.statement (s!"blocked automatic DDL lacks evidence at {event.binlogFile}:" ++
      s!"{event.eventStartPosition}"))

/-- The evidence of a blocked row whose expected state, computed again, the target has. -/
def verifiedBlockedRecoveryEvidence (query : QueryEvent) (event : DdlEvent) :
    Stream DdlSemanticEvidence := do
  let evidence ← readBlockedEvidence world event
  decided ((world.semantics.validateReplayedSourceMode evidence query.statusVariables).mapError
    .ddlBlocked)
  let expected ← ask world (fun _ => .inventory) fun inventory =>
    inventory.expectedTargetState event.rawSql evidence
  let expected ← decided (expected.mapError .statement)
  let observed ← observeTargetState world event (some evidence)
  if observed ≠ expected then
    stopWith (.ddlBlocked (s!"blocked automatic DDL remains divergent at {event.binlogFile}:" ++
      s!"{event.eventStartPosition}"))
  else pure { evidence with expectedPostState := expected }

/-- Move a blocked event on once the target has its expected state. -/
def recoverBlockedAutomaticDdl (query : QueryEvent) (event : DdlEvent) : Stream Unit := do
  let evidence ← verifiedBlockedRecoveryEvidence world query event
  recoverBlocked world event evidence
  finalizeAutomaticDdlCheckpoint world config event

/-- Move a prepared event on if the target proves its execution, else block it. -/
def reconcilePreparedAutomaticDdl (query : QueryEvent) (event : DdlEvent) : Stream Unit := do
  match ← readEvidence world event with
  | none =>
    stopWith (.statement (s!"prepared automatic DDL lacks immutable evidence at " ++
      s!"{event.binlogFile}:{event.eventStartPosition}"))
  | some evidence =>
    decided ((world.semantics.validateReplayedSourceMode evidence query.statusVariables).mapError
      .ddlBlocked)
    let observed ← observeTargetState world event (some evidence)
    match reconcilePrepared evidence observed with
    | .provenApplied =>
      markApplied world event
      finalizeAutomaticDdlCheckpoint world config event
    | .blocked =>
      markBlocked world event
      stopWith (.ddlBlocked (s!"automatic DDL semantic reconciliation blocked at " ++
        s!"{event.binlogFile}:{event.eventStartPosition}: " ++
        preparedReconciliationBlockReason evidence observed))

/-- The corrected evidence of a legacy event, and whether its statement is still to be
executed. -/
def loadLegacyJsonAliasRecoveryPlan (event : DdlEvent) : Stream (DdlSemanticEvidence × Bool) := do
  let recorded ← readBlockedEvidence world event
  let replacement ← ask world (fun _ => .inventory) fun inventory =>
    inventory.transformSql event.rawSql none
  let replacement ← decided (replacement.mapError .statement)
  let observed ← observeTargetState world event none
  if observed = recorded.expectedPostState then
    let updated ← decided ((correctedJsonAliasEvidence world.semantics event.rawSql recorded
      recorded replacement).mapError .statement)
    pure (updated, false)
  else if observed ≠ recorded.preState then
    stopWith (.ddlBlocked (s!"legacy JSON alias replay target diverged at {event.binlogFile}:" ++
      s!"{event.eventStartPosition}"))
  else
    let fresh ← ask world (fun _ => .inventory) fun inventory =>
      inventory.captureEvidence event.rawSql event.binlogFile event.eventEndPosition none
    let fresh ← decided (fresh.mapError .statement)
    let updated ← decided ((correctedJsonAliasEvidence world.semantics event.rawSql recorded
      fresh replacement).mapError .statement)
    pure (updated, true)

/-- Execute the corrected statement of a legacy event and verify it. -/
def executeCorrectedJsonAlias (event : DdlEvent) (evidence : DdlSemanticEvidence) :
    Stream Unit :=
  match evidence.generatedSql with
  | none => stopWith (.statement "corrected JSON alias evidence lacks SQL")
  | some corrected => do
    transition world
      (fun error => .statement (s!"corrected JSON alias DDL failed at {event.binlogFile}:" ++
        s!"{event.eventStartPosition} target_sql={corrected}: {error}"))
      (.executeDdl event corrected) fun target => target.executeDdl event corrected
    let post ← observeTargetState world event none
    if post ≠ evidence.expectedPostState then
      stopWith (.ddlBlocked (s!"corrected JSON alias postcondition differs at " ++
        s!"{event.binlogFile}:{event.eventStartPosition}"))
    else pure ()

/-- Recover a legacy event whose recorded statement could not be executed; says whether it was
one. -/
def recoverLegacyJsonAlias (event : DdlEvent) (status : DdlReplayStatus) : Stream Bool := do
  if !world.semantics.isLegacyJsonCheckCollisionEvent event.rawSql then pure false
  else
    let (updated, execute) ← loadLegacyJsonAliasRecoveryPlan world event
    if !execute && status == .prepared then pure false
    else
      if status = .prepared then markBlocked world event else pure ()
      if execute then executeCorrectedJsonAlias world event updated else pure ()
      recoverBlocked world event updated
      finalizeAutomaticDdlCheckpoint world config event
      pure true

/-! ## The handler -/

/-- Continue an event from the state of its journal row. -/
def resumeAutomaticDdl (query : QueryEvent) (event : DdlEvent) : Stream Unit := do
  let status ← readStatus world event
  match status with
  | some .prepared =>
    if ← recoverLegacyJsonAlias world config event .prepared then pure ()
    else reconcilePreparedAutomaticDdl world config query event
  | some .blocked =>
    if ← recoverLegacyJsonAlias world config event .blocked then pure ()
    else recoverBlockedAutomaticDdl world config query event
  | status =>
    match ← decided ((replayAction event status).mapError .statement) with
    | .prepareAndExecute => prepareAndExecuteAutomaticDdl world config query event
    | .checkpointOnly => finalizeAutomaticDdlCheckpoint world config event
    | .alreadyCheckpointed => pure ()

/-- Handle an event the translator accepts: commit the group before it, then continue it. -/
def handleAutomaticDdlEvent (query : QueryEvent) (event : DdlEvent) :
    Stream StructuredEventOutcome := do
  flushGroupedTransaction world config
  resumeAutomaticDdl world config query event
  pure (resolvedDdlOutcome event)

/-- Handle an event without a translation: commit the group before it, record it and block. -/
def handleUntranslatedDdlEvent (event : DdlEvent) : Stream StructuredEventOutcome := do
  flushGroupedTransaction world config
  ensureTranslationPending world event
  stopWith (.ddlBlocked (s!"DDL translator unavailable at {event.binlogFile}:" ++
    s!"{event.eventStartPosition}; checkpoint remains blocked"))

/-- Handle an event if it is DDL. -/
def handleDdlEvent (header : EventHeader) (event : BinlogEvent) :
    Stream (Option StructuredEventOutcome) := do
  match event with
  | .query query =>
    let s ← Prog.reads id
    let ddl := ddlEvent config.sourceIdentity s.currentFile header query
    if handlesAutomatically world.semantics s.state query then
      let outcome ← handleAutomaticDdlEvent world config query ddl
      pure (some outcome)
    else if needsManualDdl world.semantics s.state query then
      let outcome ← handleUntranslatedDdlEvent world config ddl
      pure (some outcome)
    else pure none
  | _ => pure none

/-- Handle an event: as DDL, or inside the target transaction. -/
def dispatchDdlOrTransactionalEvent (header : EventHeader) (event : BinlogEvent) :
    Stream StructuredEventOutcome := do
  match ← handleDdlEvent world config header event with
  | some outcome => pure outcome
  | none => applyStreamEventTransactionally world config header event

/-- Handle an event of the source. -/
def processStreamEvent (input : SourceStreamEvent) : Stream Unit := do
  updateState fun state => state.recordEventPosition input.sourcePosition
  let _ ← dispatchDdlOrTransactionalEvent world config input.header input.event
  pure ()

/-- Handle the events of the source in order, up to the first failure. -/
def streamEvents (inputs : List SourceStreamEvent) : Stream Unit :=
  Prog.forEach inputs (processStreamEvent world config)

end Handler

end BinlogCdc
