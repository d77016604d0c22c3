import BinlogCdc.Stream.Transaction

/-!
# Journal operations and the DDL inventory

The operations of the DDL handler over the journal's own connection, each one
statement and durable at once, and its questions to the DDL inventory.
-/

namespace BinlogCdc

/-- The error of a journal statement the server rejected. -/
def journalMysqlError (message : String) : String :=
  "automatic DDL journal mysql error: " ++ message

/-- The identity columns in which a journal row differs from an event of its key. -/
def identityMismatches (event : DdlEvent) (row : JournalRow) : List String :=
  (if row.event.sourceServerId ≠ event.sourceServerId then ["source_server_id"] else []) ++
  (if row.event.schemaName ≠ event.schemaName then ["schema_name"] else []) ++
  (if row.event.rawSql ≠ event.rawSql then ["raw_sql"] else []) ++
  (if row.event.eventEndPosition ≠ event.eventEndPosition then ["event_end_position"] else [])

/-- A journal row found under an event's key must be the event's. -/
def validateJournalEventIdentity (event : DdlEvent) (row : JournalRow) (evidenceKind : String) :
    Except String Unit :=
  let mismatches := identityMismatches event row
  if mismatches.isEmpty then .ok ()
  else
    .error (s!"automatic DDL journal {evidenceKind} identity mismatch at {event.binlogFile}:" ++
      s!"{event.eventStartPosition}: " ++ ", ".intercalate mismatches)

section Operations

variable (world : World)

/-- Read the event's journal row. -/
def readJournal (event : DdlEvent) (evidenceKind : String) : Stream (Option JournalRow) :=
  operate world .statement (fun _ => .readJournal event) fun target =>
    match target.db.journal.row event with
    | none => .ok (none, target)
    | some row =>
      match validateJournalEventIdentity event row evidenceKind with
      | .error message => .error message
      | .ok () => .ok (some row, target)

/-- Read the status of an event. -/
def readStatus (event : DdlEvent) : Stream (Option DdlReplayStatus) := do
  let row ← readJournal world event "status"
  pure (row.map JournalRow.status)

/-- Read the evidence of an event. -/
def readEvidence (event : DdlEvent) : Stream (Option DdlSemanticEvidence) := do
  let row ← readJournal world event "evidence"
  pure (row.map JournalRow.evidence)

/-- Insert a journal row. -/
def insertJournal (event : DdlEvent) (evidence : DdlSemanticEvidence)
    (status : DdlReplayStatus) : Stream Unit :=
  operate world .statement (fun _ => .writeJournal event) fun target =>
    match target.db.journal.insert ⟨event, evidence, status⟩ with
    | .error message => .error (journalMysqlError message)
    | .ok journal => .ok ((), target.withJournal journal)

/-- Update the event's journal row in a given state; exactly one row must change. -/
def updateJournal (event : DdlEvent) (status : DdlReplayStatus)
    (change : JournalRow → JournalRow) (failure : String) : Stream Unit :=
  operate world .statement (fun _ => .writeJournal event) fun target =>
    match target.db.journal.update event status change with
    | .error message => .error (journalMysqlError message)
    | .ok (affected, journal) =>
      if affected = 1 then .ok ((), target.withJournal journal) else .error failure

/-- The message of a journal write that changed no row. -/
def oneWriteMessage (operation : String) (event : DdlEvent) : String :=
  s!"{operation} did not update exactly one row at {event.binlogFile}:{event.eventStartPosition}"

/-- Record an event that has no translation. -/
def recordTranslationPending (event : DdlEvent) : Stream Unit :=
  insertJournal world event pendingEvidence .translationPending

/-- Record the evidence of an event before its execution. -/
def prepare (event : DdlEvent) (evidence : DdlSemanticEvidence) : Stream Unit := do
  let status ← readStatus world event
  if status = some .translationPending then
    updateJournal world event .translationPending
      (fun row => { row with evidence, status := .prepared })
      (oneWriteMessage "automatic DDL journal prepare" event)
  else insertJournal world event evidence .prepared

/-- The transitions the journal performs on its own connection. -/
def allowedJournalTransition (source destination : DdlReplayStatus) : Except String Unit :=
  match source, destination with
  | .prepared, .applied => .ok ()
  | .prepared, .blocked => .ok ()
  | .applied, .checkpointed => .ok ()
  | source, destination =>
    .error s!"invalid DDL replay journal transition {source.asStr}->{destination.asStr}"

/-- Move the event's row from one state to another. -/
def journalTransition (event : DdlEvent) (source destination : DdlReplayStatus) :
    Stream Unit := do
  decided ((allowedJournalTransition source destination).mapError .statement)
  updateJournal world event source (fun row => { row with status := destination })
    (oneWriteMessage (s!"automatic DDL journal transition {source.asStr} -> " ++
      destination.asStr) event)

/-- The event is proven applied. -/
def markApplied (event : DdlEvent) : Stream Unit :=
  journalTransition world event .prepared .applied

/-- The event waits for an operator. -/
def markBlocked (event : DdlEvent) : Stream Unit :=
  journalTransition world event .prepared .blocked

/-- A blocked event is proven applied; its evidence is written again. -/
def recoverBlocked (event : DdlEvent) (evidence : DdlSemanticEvidence) : Stream Unit :=
  updateJournal world event .blocked (fun row => { row with evidence, status := .applied })
    (oneWriteMessage "blocked automatic DDL recovery" event)

/-- Ask the DDL inventory; an error is an answer. -/
def ask {α : Type} (label : α → TargetOp) (question : DdlInventory → Except String α) :
    Stream (Except String α) := fun s =>
  match world.outcome s.tick with
  | .crashed => (.error .crash, s.advance)
  | .refused message => (.ok (.error message), s.advance)
  | .done =>
    match question (world.inventory s.tick) with
    | .error message => (.ok (.error message), s.advance)
    | .ok answer => (.ok (.ok answer), s.perform (label answer) s.target)

/-- Read the target schema for an event. -/
def observeTargetState (event : DdlEvent) (evidence : Option DdlSemanticEvidence) :
    Stream String := do
  let observed ← ask world (fun observed => .observe event observed)
    fun inventory => inventory.observeTargetState event.rawSql evidence
  decided (observed.mapError .statement)

end Operations

end BinlogCdc
