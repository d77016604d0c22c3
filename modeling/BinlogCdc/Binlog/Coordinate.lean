import Mathlib

/-!
# Binlog coordinates, checkpoints and the coordinate guards

A coordinate is a binlog file name and a byte position. The stream, the DDL handler
and the DDL journal compare coordinates with the guards of this file, which order
file names as strings; lost-binlog recovery compares the parsed file sequences.
-/

namespace BinlogCdc

/-- A position in a source binlog file. -/
structure BinlogCoordinate where
  /-- The binlog file name. -/
  file : String
  /-- The byte position in the file. -/
  position : Nat
  deriving DecidableEq, Repr

/-- The last event a checkpoint was taken at. -/
structure LastEvent where
  /-- The kind of the event. -/
  eventType : String
  /-- A description for operators. -/
  description : String
  deriving DecidableEq, Repr

/-- The durable resume point of the stream. -/
structure Checkpoint where
  /-- The binlog file to resume in. -/
  sourceFile : String
  /-- The byte position to resume at. -/
  sourcePosition : Nat
  /-- The GTID of the event; the stream never sets it. -/
  gtid : Option String
  /-- The source timestamp of the event; the stream stores zero. -/
  eventTimestamp : Nat
  /-- The event the checkpoint was taken at. -/
  lastEvent : LastEvent
  deriving DecidableEq, Repr

/-- The coordinate a checkpoint resumes from. -/
def Checkpoint.coordinate (checkpoint : Checkpoint) : BinlogCoordinate :=
  ⟨checkpoint.sourceFile, checkpoint.sourcePosition⟩

/-- The checkpoint the stream stores for a coordinate. -/
def coordinateCheckpoint (coordinate : BinlogCoordinate) (eventType : String) : Checkpoint where
  sourceFile := coordinate.file
  sourcePosition := coordinate.position
  gtid := none
  eventTimestamp := 0
  lastEvent := {
    eventType
    description := s!"structured binlog event at {coordinate.file}:{coordinate.position}" }

@[simp] theorem coordinate_coordinateCheckpoint (coordinate : BinlogCoordinate)
    (eventType : String) :
    (coordinateCheckpoint coordinate eventType).coordinate = coordinate := rfl

/-- A source DDL statement with its coordinates. -/
structure DdlEvent where
  /-- The identity of the source server. -/
  sourceIdentity : String
  /-- The server id in the binlog event header. -/
  sourceServerId : Nat
  /-- The binlog file of the event. -/
  binlogFile : String
  /-- The position where the event starts. -/
  eventStartPosition : Nat
  /-- The position after the event. -/
  eventEndPosition : Nat
  /-- The default schema of the statement. -/
  schemaName : String
  /-- The statement text as logged by the source. -/
  rawSql : String
  deriving DecidableEq, Repr

/-- Why a statement is quarantined. -/
inductive QuarantineReason where
  /-- Nothing remains after normalization. -/
  | emptyStatement
  /-- More than one statement in one event. -/
  | multiStatement
  /-- A statement kind outside the replay contract. -/
  | unsupportedStatementType (keyword : String)
  /-- A statement whose replay is not deterministic. -/
  | unsafePattern (pattern : String)
  /-- Syntax the target does not have. -/
  | mariaDbOnlySyntax (pattern : String)
  deriving DecidableEq, Repr

/-- A statement set aside together with its place in the binlog. -/
structure QuarantinedStatement where
  /-- Where the statement was logged. -/
  coordinate : BinlogCoordinate
  /-- The default database of the statement. -/
  defaultDatabase : Option String
  /-- The statement text. -/
  sql : String
  /-- Why it was set aside. -/
  reason : QuarantineReason
  deriving DecidableEq, Repr

/-- The errors of applying a source binlog. -/
inductive ApplyBinlogError where
  /-- An invalid configuration. -/
  | config (message : String)
  /-- The source could not be read. -/
  | sourceCommand (message : String)
  /-- A target operation failed. -/
  | target (message : String)
  /-- A DDL event waits for an operator. -/
  | ddlBlocked (message : String)
  /-- A statement cannot be applied. -/
  | statement (message : String)
  /-- Statements were quarantined. -/
  | quarantined (statements : List QuarantinedStatement)
  /-- The checkpoint could not be read, checked or stored. -/
  | checkpoint (message : String)
  deriving DecidableEq, Repr

/-- The states of a DDL journal row. -/
inductive DdlReplayStatus where
  /-- Recorded without an executable translation. -/
  | translationPending
  /-- Translation and evidence recorded, execution not proven. -/
  | prepared
  /-- Execution proven by the observed target schema. -/
  | applied
  /-- The stream checkpoint is past the event. -/
  | checkpointed
  /-- Waiting for an operator. -/
  | blocked
  deriving DecidableEq, Repr

/-- The spelling of a status in the journal table and in messages. -/
def DdlReplayStatus.asStr : DdlReplayStatus → String
  | .translationPending => "translation_pending"
  | .prepared => "prepared"
  | .applied => "applied"
  | .checkpointed => "checkpointed"
  | .blocked => "blocked"

/-- The earliest journal row that is not checkpointed. -/
structure JournalBarrier where
  /-- The binlog file of the unresolved event. -/
  binlogFile : String
  /-- The position where the unresolved event starts. -/
  eventStartPosition : Nat
  /-- The state of its journal row. -/
  status : DdlReplayStatus
  deriving DecidableEq, Repr

/-- The stream's order on coordinates. -/
def binlogCoordinateIsBefore (left right : BinlogCoordinate) : Bool :=
  left.file < right.file || (left.file == right.file && left.position < right.position)

/-- The stream's order is lexicographic: file name, then position. -/
theorem binlogCoordinateIsBefore_iff (left right : BinlogCoordinate) :
    binlogCoordinateIsBefore left right = true ↔
      left.file < right.file ∨ (left.file = right.file ∧ left.position < right.position) := by
  simp [binlogCoordinateIsBefore]

/-- The stream checkpoint must not move backwards. -/
def ensureCoordinateAdvances (current : Option Checkpoint) (next : BinlogCoordinate) :
    Except ApplyBinlogError Unit :=
  match current with
  | none => .ok ()
  | some current =>
    let currentCoordinate := current.coordinate
    if binlogCoordinateIsBefore next currentCoordinate then
      .error (.checkpoint (s!"refusing checkpoint regression from {currentCoordinate.file}:" ++
        s!"{currentCoordinate.position} to {next.file}:{next.position}"))
    else .ok ()

/-- The regression check accepts exactly the coordinates that are not before the current one. -/
theorem ensureCoordinateAdvances_ok_iff (current : Checkpoint) (next : BinlogCoordinate) :
    ensureCoordinateAdvances (some current) next = .ok () ↔
      binlogCoordinateIsBefore next current.coordinate = false := by
  simp only [ensureCoordinateAdvances]
  cases binlogCoordinateIsBefore next current.coordinate <;> simp

/-- A DDL event may be finalized only over a checkpoint at or before its start. -/
def ensureAutomaticDdlCheckpointPredecessor (current : Option Checkpoint) (event : DdlEvent) :
    Except ApplyBinlogError Unit :=
  match current with
  | none =>
    .error (.checkpoint (s!"automatic DDL checkpoint predecessor mismatch at " ++
      s!"{event.binlogFile}:{event.eventStartPosition}: checkpoint row is missing"))
  | some current =>
    let currentIsBeforeEvent := current.sourceFile < event.binlogFile ||
      (current.sourceFile == event.binlogFile &&
        current.sourcePosition ≤ event.eventStartPosition)
    if currentIsBeforeEvent then .ok ()
    else
      .error (.checkpoint (s!"automatic DDL checkpoint predecessor mismatch: expected at or " ++
        s!"before {event.binlogFile}:{event.eventStartPosition} but locked " ++
        s!"{current.sourceFile}:{current.sourcePosition}"))

/-- The predecessor check accepts exactly the checkpoints that are not after the start. -/
theorem ensureAutomaticDdlCheckpointPredecessor_ok_iff (current : Checkpoint)
    (event : DdlEvent) :
    ensureAutomaticDdlCheckpointPredecessor (some current) event = .ok () ↔
      current.sourceFile < event.binlogFile ∨
        (current.sourceFile = event.binlogFile ∧
          current.sourcePosition ≤ event.eventStartPosition) := by
  simp only [ensureAutomaticDdlCheckpointPredecessor]
  split
  · next h => simpa using h
  · next h => simpa using h

/-- No event after an unresolved journal row may be handled. The source compares the two
coordinates as tuples, file name first. -/
def enforceNoOvertake (unresolved : Option JournalBarrier) (nextFile : String)
    (nextPosition : Nat) : Except String Unit :=
  match unresolved with
  | none => .ok ()
  | some unresolved =>
    if unresolved.binlogFile < nextFile ||
        (nextFile == unresolved.binlogFile && unresolved.eventStartPosition < nextPosition) then
      .error (s!"automatic DDL barrier at {unresolved.binlogFile}:" ++
        s!"{unresolved.eventStartPosition} ({unresolved.status.asStr}) blocks later event " ++
        s!"{nextFile}:{nextPosition}")
    else .ok ()

/-- The overtake check rejects exactly the coordinates after the unresolved one. -/
theorem enforceNoOvertake_ok_iff (unresolved : JournalBarrier) (nextFile : String)
    (nextPosition : Nat) :
    enforceNoOvertake (some unresolved) nextFile nextPosition = .ok () ↔
      binlogCoordinateIsBefore ⟨unresolved.binlogFile, unresolved.eventStartPosition⟩
        ⟨nextFile, nextPosition⟩ = false := by
  rw [← Bool.not_eq_true, binlogCoordinateIsBefore_iff]
  simp only [enforceNoOvertake]
  split
  · next h =>
    simp only [Bool.or_eq_true, Bool.and_eq_true, decide_eq_true_eq, beq_iff_eq] at h
    simpa only [reduceCtorEq, false_iff, not_not, eq_comm] using h
  · next h =>
    simp only [Bool.or_eq_true, Bool.and_eq_true, decide_eq_true_eq, beq_iff_eq] at h
    simpa only [true_iff, eq_comm] using h

/-- Split at the last occurrence of a separator. -/
def rsplitOnce (separator : Char) : List Char → Option (List Char × List Char)
  | [] => none
  | c :: rest =>
    match rsplitOnce separator rest with
    | some (before, after) => some (c :: before, after)
    | none => if c = separator then some ([], rest) else none

/-- The value of a decimal digit character. -/
def decimalDigit (c : Char) : Nat := c.toNat - '0'.toNat

/-- Parse an unsigned 64-bit decimal: an optional plus sign, then digits, no overflow. -/
def parseU64 (text : List Char) : Option Nat :=
  let digits := match text with
    | '+' :: rest => rest
    | _ => text
  if digits.isEmpty || !digits.all Char.isDigit then none
  else
    let value := digits.foldl (fun value d => 10 * value + decimalDigit d) 0
    if value < 2 ^ 64 then some value else none

/-- The sequence number of a binlog file: what follows the last dot of its name. -/
def binlogSequence (file : String) : Option Nat :=
  (rsplitOnce '.' file.toList).bind fun split => parseU64 split.2

/-- The order lost-binlog recovery puts on checkpoints. -/
def sourceCoordinateAdvances (old new : Checkpoint) : Bool :=
  if new.sourceFile = old.sourceFile then old.sourcePosition < new.sourcePosition
  else
    match binlogSequence new.sourceFile, binlogSequence old.sourceFile with
    | some newSequence, some oldSequence => oldSequence < newSequence
    | _, _ => false

end BinlogCdc
