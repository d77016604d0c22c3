import BinlogCdc.Sql.Statement

/-!
# The target database

What the stream can observe of its target: the row changes and replayed statements
applied, the DDL executed, the stream checkpoint row and the DDL journal table. The
stream's own connection may hold an open transaction, kept as the list of its
uncommitted changes; the checkpoint store and the journal work over connections of
their own, whose statements are durable at once. The journal table carries the
insert and update guards of its triggers.
-/

namespace BinlogCdc

/-! ## Statements and row changes -/

/-- A value bound to a statement of the target. Floating point values are bit patterns. -/
inductive TargetValue where
  /-- The null value. -/
  | null
  /-- A byte string. -/
  | bytes (value : List UInt8)
  /-- A signed integer. -/
  | int (value : Int)
  /-- An unsigned integer. -/
  | uint (value : Nat)
  /-- A single precision number. -/
  | float (bits : UInt32)
  /-- A double precision number. -/
  | double (bits : UInt64)
  /-- Year, month, day, hour, minute, second, microseconds. -/
  | date (year month day hour minute second micros : Nat)
  /-- Sign, days, hours, minutes, seconds, microseconds. -/
  | time (negative : Bool) (days hours minutes seconds micros : Nat)
  deriving DecidableEq, Repr

/-- A statement with its bound values. -/
structure SqlStatement where
  /-- The statement text. -/
  sql : String
  /-- The bound values. -/
  params : List TargetValue
  deriving DecidableEq, Repr

/-- The kinds of row changes. -/
inductive RowOperation where
  /-- A new row. -/
  | insert
  /-- A changed row. -/
  | update
  /-- A removed row. -/
  | delete
  deriving DecidableEq, Repr

/-- One row change for the target. -/
structure TargetRowChange where
  /-- The statement that performs the change. -/
  statement : SqlStatement
  /-- The kind of the change. -/
  kind : RowOperation
  /-- The schema of the table. -/
  schema : String
  /-- The table. -/
  table : String
  /-- The column values of the row. -/
  values : List (String × TargetValue)
  deriving DecidableEq, Repr

/-- What the stream applies on the target for a source event, with the event's coordinate. -/
inductive TargetWork where
  /-- A row change. -/
  | rowChange (source : BinlogCoordinate) (change : TargetRowChange)
  /-- A source statement executed as it is. -/
  | statement (source : BinlogCoordinate) (sql : String)
  deriving DecidableEq, Repr

/-! ## The DDL journal table -/

/-- What is recorded about the meaning of a DDL event. -/
structure DdlSemanticEvidence where
  /-- The version of the transformation. -/
  transformationVersion : String
  /-- The target statement, if one is needed. -/
  generatedSql : Option String
  /-- The canonical form of the source statement. -/
  canonicalAst : String
  /-- The target schema before the statement. -/
  preState : String
  /-- The target schema expected after the statement. -/
  expectedPostState : String
  deriving DecidableEq, Repr

/-- The primary key of the journal. -/
structure JournalKey where
  /-- The source identity. -/
  sourceIdentity : String
  /-- The binlog file. -/
  binlogFile : String
  /-- The start of the event. -/
  eventStartPosition : Nat
  deriving DecidableEq, Repr

/-- The journal key of an event. -/
def DdlEvent.key (event : DdlEvent) : JournalKey :=
  ⟨event.sourceIdentity, event.binlogFile, event.eventStartPosition⟩

/-- A journal row: the identity of its event, the evidence and the status. -/
structure JournalRow where
  /-- The event; its key columns are the primary key of the row. -/
  event : DdlEvent
  /-- The recorded evidence. -/
  evidence : DdlSemanticEvidence
  /-- The state of the event. -/
  status : DdlReplayStatus
  deriving DecidableEq, Repr

/-- The journal table: at most one row for each key, and every row under its own key. -/
structure Journal where
  /-- The row of a key. -/
  rows : JournalKey → Option JournalRow
  /-- The key columns of a row are its key. -/
  keyed : ∀ key row, rows key = some row → row.event.key = key

namespace Journal

/-- The row under an event's key. -/
def row (journal : Journal) (event : DdlEvent) : Option JournalRow := journal.rows event.key

/-- The journal without rows. -/
def empty : Journal := ⟨fun _ => none, fun _ _ h => nomatch h⟩

/-- Write a row under its key. -/
def put (journal : Journal) (row : JournalRow) : Journal where
  rows key := if key = row.event.key then some row else journal.rows key
  keyed := by
    intro key other h
    split at h
    · next hkey =>
      cases h
      exact hkey.symm
    · exact journal.keyed key other h

/-- The row just written is found under every event of its key. -/
theorem row_put_of_key_eq {journal : Journal} {row : JournalRow} {event : DdlEvent}
    (h : event.key = row.event.key) : (journal.put row).row event = some row := if_pos h

/-- Writing one row leaves the other keys alone. -/
theorem row_put_of_key_ne {journal : Journal} {row : JournalRow} {event : DdlEvent}
    (h : event.key ≠ row.event.key) : (journal.put row).row event = journal.row event := if_neg h

end Journal

/-- The evidence of a row without a translation. -/
def pendingEvidence : DdlSemanticEvidence :=
  ⟨"translator-unavailable", none, "", "", ""⟩

/-- Every text of the evidence is present. -/
def DdlSemanticEvidence.isComplete (evidence : DdlSemanticEvidence) : Bool :=
  evidence.transformationVersion != "" && evidence.canonicalAst != "" &&
    evidence.preState != "" && evidence.expectedPostState != ""

/-- The insert trigger: rows begin pending without evidence, or prepared with it. -/
def insertGuard (new : JournalRow) : Bool :=
  (new.status == .translationPending && new.evidence == pendingEvidence) ||
    (new.status == .prepared && new.evidence.isComplete)

/-- The update trigger: the identity stays, and the status moves along an allowed edge; the
evidence changes only on promotion of a pending row and on recovery of a blocked one. -/
def updateGuard (old new : JournalRow) : Bool :=
  old.event == new.event &&
    ((old.status == .translationPending && new.status == .prepared &&
        old.evidence == pendingEvidence && new.evidence.isComplete) ||
      (old.status == .blocked && new.status == .applied && new.evidence.isComplete) ||
      (old.evidence == new.evidence &&
        ((old.status == .prepared && (new.status == .applied || new.status == .blocked)) ||
          (old.status == .applied && new.status == .checkpointed))))

/-- What an UPDATE of one row does: how many rows changed, or the trigger's error. The row
matches when it is the event's, in the given state. -/
def Journal.update (journal : Journal) (event : DdlEvent) (status : DdlReplayStatus)
    (change : JournalRow → JournalRow) : Except String (Nat × Journal) :=
  match journal.row event with
  | none => .ok (0, journal)
  | some row =>
    if row.event = event ∧ row.status = status then
      if updateGuard row (change row) then .ok (1, journal.put (change row))
      else .error ("automatic DDL journal identity/evidence is immutable and status transition " ++
        "is not allowed")
    else .ok (0, journal)

/-- What an INSERT of a row does. -/
def Journal.insert (journal : Journal) (row : JournalRow) : Except String Journal :=
  match journal.row row.event with
  | some _ => .error "Duplicate entry for key PRIMARY"
  | none =>
    if insertGuard row then .ok (journal.put row)
    else .error ("automatic DDL journal rows must begin translation_pending or prepared with " ++
      "valid evidence")

/-! ## The database and the stream's transaction -/

/-- One execution of a generated DDL statement. -/
structure DdlExecution where
  /-- The event it was generated for. -/
  event : DdlEvent
  /-- The statement. -/
  sql : String
  deriving DecidableEq, Repr

/-- The durable contents of the target. -/
structure TargetDb where
  /-- The row changes and statements applied, in order. -/
  work : List TargetWork
  /-- The generated DDL executed, in order. -/
  ddl : List DdlExecution
  /-- The stream checkpoint row. -/
  checkpoint : Option Checkpoint
  /-- The DDL journal. -/
  journal : Journal

/-- The uncommitted changes of the stream's transaction. -/
structure TargetChanges where
  /-- The row changes and statements applied. -/
  work : List TargetWork := []
  /-- The checkpoint row, if it was written. -/
  checkpoint : Option Checkpoint := none
  /-- The journal rows moved from applied to checkpointed. -/
  checkpointed : List DdlEvent := []
  deriving DecidableEq, Repr

/-- The checkpoint transition of an event's row; a row in another state is left alone. -/
def Journal.markCheckpointed (journal : Journal) (event : DdlEvent) : Journal :=
  match journal.update event .applied fun row => { row with status := .checkpointed } with
  | .ok (_, updated) => updated
  | .error _ => journal

/-- The database with the changes of a transaction. -/
def TargetDb.apply (db : TargetDb) (changes : TargetChanges) : TargetDb where
  work := db.work ++ changes.work
  ddl := db.ddl
  checkpoint := changes.checkpoint.or db.checkpoint
  journal := changes.checkpointed.foldl Journal.markCheckpointed db.journal

@[simp] theorem TargetDb.apply_empty (db : TargetDb) : db.apply {} = db := by
  simp [TargetDb.apply]

/-- The target as the stream's connection leaves it. -/
structure Target where
  /-- The durable contents. -/
  db : TargetDb
  /-- The open transaction of the stream's connection. -/
  transaction : Option TargetChanges

namespace Target

/-- What the stream's connection sees. -/
def view (target : Target) : TargetDb := target.db.apply (target.transaction.getD {})

/-- Start a transaction; an open one is committed first. -/
def begin (target : Target) : Target := ⟨target.view, some {}⟩

/-- Make the open transaction durable. -/
def commit (target : Target) : Target := ⟨target.view, none⟩

/-- Discard the open transaction. -/
def rollback (target : Target) : Target := { target with transaction := none }

/-- A statement on the stream's connection: part of the open transaction, or durable at once. -/
def change (target : Target) (f : TargetChanges → TargetChanges) : Target :=
  match target.transaction with
  | some changes => { target with transaction := some (f changes) }
  | none => { target with db := target.db.apply (f {}) }

/-- Apply row changes and statements. -/
def applyWork (target : Target) (work : List TargetWork) : Target :=
  target.change fun changes => { changes with work := changes.work ++ work }

/-- Write the checkpoint row on the stream's connection. -/
def saveCheckpoint (target : Target) (checkpoint : Checkpoint) : Target :=
  target.change fun changes => { changes with checkpoint := some checkpoint }

/-- Move a journal row from applied to checkpointed on the stream's connection. -/
def markCheckpointed (target : Target) (event : DdlEvent) : Target :=
  target.change fun changes => { changes with checkpointed := changes.checkpointed ++ [event] }

/-- Execute a source statement as it is; a schema change commits the open transaction. -/
def replay (target : Target) (source : BinlogCoordinate) (sql : String) : Target :=
  let work := [TargetWork.statement source sql]
  if isKnownCompatibleDdl (normalizeStatement sql.toList) then target.commit.applyWork work
  else target.applyWork work

/-- Execute generated DDL, which commits the open transaction. -/
def executeDdl (target : Target) (event : DdlEvent) (sql : String) : Target :=
  { db := { target.view with ddl := target.view.ddl ++ [⟨event, sql⟩] }, transaction := none }

/-- Write the checkpoint row over the checkpoint store's connection. -/
def storeCheckpoint (target : Target) (checkpoint : Checkpoint) : Target :=
  { target with db := { target.db with checkpoint := some checkpoint } }

/-- Change the journal over its own connection. -/
def withJournal (target : Target) (journal : Journal) : Target :=
  { target with db := { target.db with journal } }

/-- The target after the stream's process died. -/
def restart (target : Target) : Target := ⟨target.db, none⟩

end Target

end BinlogCdc
