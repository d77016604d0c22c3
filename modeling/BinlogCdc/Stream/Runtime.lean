import BinlogCdc.Core.Program
import BinlogCdc.Stream.Event

/-!
# The running stream and its operations

The state of one stream attempt and the operations it issues. The world decides what
becomes of every operation, what the clock shows and what the DDL inventory answers;
it is indexed by a tick that every operation advances. An operation that takes effect
is recorded together with the target before and after it.
-/

namespace BinlogCdc

/-! ## The world -/

/-- A target statement for a DDL event. -/
structure DdlTransformation where
  /-- The version of the transformation. -/
  version : String
  /-- The target statement, if one is needed. -/
  targetSql : Option String
  deriving DecidableEq, Repr

/-- The pure checks of the DDL translator: what it accepts and how it reads session state. -/
structure DdlSemantics where
  /-- The SQL mode in the session state of a statement. -/
  decodeQueryCharsetContext : List UInt8 → Except String (Option Nat)
  /-- The statement is one of the two release move procedures kept on the source. -/
  supportsSourceOnlyReleaseMoveProcedureCreate : String → Bool
  /-- A dedicated transformation accepts the statement. -/
  supportsDdlTransformation : String → Bool → Option Nat → Bool
  /-- The generic translation accepts the statement. -/
  supportsAutomaticDdlOperation : String → Option Nat → Bool
  /-- The statement creates a table, whose target statement comes with the evidence. -/
  createTableRequiresEvidenceSql : String → Option Nat → Bool
  /-- The recorded evidence and the session state agree on the SQL mode. -/
  validateReplayedSourceMode : DdlSemanticEvidence → List UInt8 → Except String Unit
  /-- The statement is one whose recorded translation named a JSON alias check. -/
  isLegacyJsonCheckCollisionEvent : String → Bool

/-- The answers of the DDL inventory at one moment. -/
structure DdlInventory where
  /-- The target statement for a source statement, in the session state if one is given. -/
  transformSql : String → Option (List UInt8) → Except String DdlTransformation
  /-- The evidence for a source statement at a coordinate. -/
  captureEvidence : String → String → Nat → Option (List UInt8) →
    Except String DdlSemanticEvidence
  /-- The target schema as it is, in the terms of the evidence if one is given. -/
  observeTargetState : String → Option DdlSemanticEvidence → Except String String
  /-- The target schema the statement should lead to. -/
  expectedTargetState : String → DdlSemanticEvidence → Except String String

/-- Everything outside the stream. -/
structure World where
  /-- What becomes of the operation at a tick. -/
  outcome : Nat → Outcome
  /-- The clock at a tick, in milliseconds. -/
  clock : Nat → Nat
  /-- The row mapping. -/
  codec : RowCodec
  /-- The checks of the DDL translator. -/
  semantics : DdlSemantics
  /-- The DDL inventory at a tick. -/
  inventory : Nat → DdlInventory

/-! ## Configuration and state -/

/-- When grouped source transactions are committed. -/
structure TargetTransactionGroupConfig where
  /-- The number of source transactions in a group. -/
  size : Nat
  /-- The time after which a group is committed, in milliseconds; zero for never. -/
  timeout : Nat
  deriving DecidableEq, Repr

/-- Where the stream keeps its checkpoint. -/
structure StreamCheckpointContext where
  /-- The stream has a checkpoint store. -/
  store : Bool
  /-- The checkpoint table written in the target transaction. -/
  table : Option String
  /-- The checkpoint row written in the target transaction. -/
  name : Option String
  deriving DecidableEq, Repr

/-- The target-table checkpoint mode. -/
def StreamCheckpointContext.targetTable (table name : String) : StreamCheckpointContext :=
  ⟨true, some table, some name⟩

/-- The configuration of a stream. -/
structure StreamConfig where
  /-- The identity of the source. -/
  sourceIdentity : String
  /-- The grouping of source transactions. -/
  groupConfig : TargetTransactionGroupConfig
  /-- The checkpoint mode. -/
  checkpoint : StreamCheckpointContext
  deriving DecidableEq, Repr

/-- The stream's own record of its target transaction. -/
structure TargetTransaction where
  /-- The stream began a transaction and did not end it. -/
  isOpen : Bool := false
  /-- The source transactions completed in it. -/
  sourceTransactions : Nat := 0
  /-- The clock when it was begun. -/
  openedAt : Option Nat := none
  /-- The checkpoint to store after it, without a checkpoint table. -/
  pendingFileCheckpoint : Option Checkpoint := none
  /-- The checkpoint to write in it before it commits. -/
  pendingTransactionCheckpoint : Option Checkpoint := none
  deriving DecidableEq, Repr

/-- The operations on the target. -/
inductive TargetOp where
  /-- Begin a transaction. -/
  | begin
  /-- Commit the transaction. -/
  | commit
  /-- Roll the transaction back. -/
  | rollback
  /-- Apply a row change. -/
  | rowChange (source : BinlogCoordinate) (change : TargetRowChange)
  /-- Execute a source statement as it is. -/
  | replay (source : BinlogCoordinate) (sql : String)
  /-- Set the insert id of the session. -/
  | setInsertId (value : Nat)
  /-- Read and lock the checkpoint row. -/
  | lockCheckpoint
  /-- Write the checkpoint row on the stream's connection. -/
  | saveCheckpoint (checkpoint : Checkpoint)
  /-- Move a journal row from applied to checkpointed on the stream's connection. -/
  | markCheckpointed (event : DdlEvent)
  /-- Execute generated DDL. -/
  | executeDdl (event : DdlEvent) (sql : String)
  /-- Read the checkpoint row over the store's connection. -/
  | loadStore
  /-- Write the checkpoint row over the store's connection. -/
  | saveStore (checkpoint : Checkpoint)
  /-- Read a journal row. -/
  | readJournal (event : DdlEvent)
  /-- Write a journal row. -/
  | writeJournal (event : DdlEvent)
  /-- Read the target schema for a DDL event. -/
  | observe (event : DdlEvent) (observed : String)
  /-- Another inventory query. -/
  | inventory
  deriving DecidableEq, Repr

/-- An operation that took effect. -/
structure TraceEntry where
  /-- The operation. -/
  op : TargetOp
  /-- The target before it. -/
  before : Target
  /-- The target after it. -/
  after : Target

/-- The state of a stream attempt. -/
structure Runtime where
  /-- The target. -/
  target : Target
  /-- The checkpoint the store read or wrote last. -/
  lastCheckpoint : Option Checkpoint
  /-- The state of the event handlers. -/
  state : StructuredEventState
  /-- The table maps in force. -/
  registry : List (Nat × RowTableMap)
  /-- The stream's record of its target transaction. -/
  targetTransaction : TargetTransaction
  /-- The binlog file being read. -/
  currentFile : String
  /-- The number of questions put to the world. -/
  tick : Nat
  /-- The operations that took effect, in order. -/
  trace : List TraceEntry

namespace Runtime

/-- The state after a question to the world. -/
def advance (s : Runtime) : Runtime := { s with tick := s.tick + 1 }

/-- The state after an operation took effect. -/
def perform (s : Runtime) (op : TargetOp) (target : Target) : Runtime :=
  { s with target, tick := s.tick + 1, trace := s.trace ++ [⟨op, s.target, target⟩] }

section Fields

variable (s : Runtime) (op : TargetOp) (target : Target)

@[simp] theorem advance_target : s.advance.target = s.target := rfl
@[simp] theorem advance_lastCheckpoint : s.advance.lastCheckpoint = s.lastCheckpoint := rfl
@[simp] theorem advance_state : s.advance.state = s.state := rfl
@[simp] theorem advance_registry : s.advance.registry = s.registry := rfl
@[simp] theorem advance_targetTransaction :
    s.advance.targetTransaction = s.targetTransaction := rfl
@[simp] theorem advance_currentFile : s.advance.currentFile = s.currentFile := rfl
@[simp] theorem advance_trace : s.advance.trace = s.trace := rfl
@[simp] theorem perform_target : (s.perform op target).target = target := rfl
@[simp] theorem perform_lastCheckpoint :
    (s.perform op target).lastCheckpoint = s.lastCheckpoint := rfl
@[simp] theorem perform_state : (s.perform op target).state = s.state := rfl
@[simp] theorem perform_registry : (s.perform op target).registry = s.registry := rfl
@[simp] theorem perform_targetTransaction :
    (s.perform op target).targetTransaction = s.targetTransaction := rfl
@[simp] theorem perform_currentFile : (s.perform op target).currentFile = s.currentFile := rfl
@[simp] theorem perform_trace :
    (s.perform op target).trace = s.trace ++ [⟨op, s.target, target⟩] := rfl

end Fields

end Runtime

/-- The programs of the stream. -/
abbrev Stream := Prog Runtime (Stop ApplyBinlogError)

/-- Change the stream's record of its target transaction. -/
def updateTransaction (f : TargetTransaction → TargetTransaction) : Stream Unit :=
  Prog.update fun s => { s with targetTransaction := f s.targetTransaction }

/-- Change the state of the event handlers. -/
def updateState (f : StructuredEventState → StructuredEventState) : Stream Unit :=
  Prog.update fun s => { s with state := f s.state }

/-- Fail with an error of the program. -/
def stopWith {α : Type} (error : ApplyBinlogError) : Stream α := Prog.fail (.error error)

/-- Turn a decision into a program. -/
def decided {α : Type} (result : Except ApplyBinlogError α) : Stream α :=
  match result with
  | .ok value => pure value
  | .error error => stopWith error

section World

variable (world : World)

/-- Read the clock. -/
def readClock : Stream Nat := fun s => (.ok (world.clock s.tick), s.advance)

/-- Issue one operation. Its own failure and its refusal are reported through the wrapper; both
leave the target as it was. -/
def operate {α : Type} (wrap : String → ApplyBinlogError) (label : α → TargetOp)
    (effect : Target → Except String (α × Target)) : Stream α := fun s =>
  match world.outcome s.tick with
  | .crashed => (.error .crash, s.advance)
  | .refused message => (.error (.error (wrap message)), s.advance)
  | .done =>
    match effect s.target with
    | .error message => (.error (.error (wrap message)), s.advance)
    | .ok (value, target) => (.ok value, s.perform (label value) target)

/-- Issue an operation that cannot fail by itself. -/
def transition (wrap : String → ApplyBinlogError) (op : TargetOp) (effect : Target → Target) :
    Stream Unit :=
  operate world wrap (fun _ => op) fun target => .ok ((), effect target)

variable {world}

/-- The rule of an operation: it takes effect, or it stops the program with the target unchanged
and its own error. -/
theorem wp_operate_wrapped {α : Type} {wrap : String → ApplyBinlogError} {label : α → TargetOp}
    {effect : Target → Except String (α × Target)} {Q : α → Runtime → Prop}
    {E : Stop ApplyBinlogError → Runtime → Prop} {s : Runtime}
    (hQ : ∀ value target, effect s.target = .ok (value, target) →
      Q value (s.perform (label value) target))
    (hE : ∀ stop, stop = .crash ∨ (∃ message, stop = .error (wrap message)) → E stop s.advance) :
    Prog.wp (operate world wrap label effect) Q E s := by
  unfold Prog.wp operate
  cases world.outcome s.tick with
  | crashed => exact hE .crash (Or.inl rfl)
  | refused message => exact hE (.error (wrap message)) (Or.inr ⟨message, rfl⟩)
  | done =>
    cases heffect : effect s.target with
    | error message => simpa [heffect] using hE (.error (wrap message)) (Or.inr ⟨message, rfl⟩)
    | ok result =>
      obtain ⟨value, target⟩ := result
      simpa [heffect] using hQ value target heffect

/-- The rule of an operation whose error does not matter. -/
theorem wp_operate {α : Type} {wrap : String → ApplyBinlogError} {label : α → TargetOp}
    {effect : Target → Except String (α × Target)} {Q : α → Runtime → Prop}
    {E : Stop ApplyBinlogError → Runtime → Prop} {s : Runtime}
    (hQ : ∀ value target, effect s.target = .ok (value, target) →
      Q value (s.perform (label value) target))
    (hE : ∀ stop, E stop s.advance) : Prog.wp (operate world wrap label effect) Q E s :=
  wp_operate_wrapped hQ fun stop _ => hE stop

/-- The rule of an operation that cannot fail by itself. -/
theorem wp_transition {wrap : String → ApplyBinlogError} {op : TargetOp}
    {effect : Target → Target} {Q : Unit → Runtime → Prop}
    {E : Stop ApplyBinlogError → Runtime → Prop} {s : Runtime}
    (hQ : Q () (s.perform op (effect s.target))) (hE : ∀ stop, E stop s.advance) :
    Prog.wp (transition world wrap op effect) Q E s := by
  refine wp_operate ?_ hE
  intro value target h
  cases h
  exact hQ

@[simp] theorem wp_readClock {Q : Nat → Runtime → Prop}
    {E : Stop ApplyBinlogError → Runtime → Prop} {s : Runtime} :
    Prog.wp (readClock world) Q E s ↔ Q (world.clock s.tick) s.advance := Iff.rfl

@[simp] theorem wp_updateTransaction {f : TargetTransaction → TargetTransaction}
    {Q : Unit → Runtime → Prop} {E : Stop ApplyBinlogError → Runtime → Prop} {s : Runtime} :
    Prog.wp (updateTransaction f) Q E s ↔
      Q () { s with targetTransaction := f s.targetTransaction } := Iff.rfl

@[simp] theorem wp_updateState {f : StructuredEventState → StructuredEventState}
    {Q : Unit → Runtime → Prop} {E : Stop ApplyBinlogError → Runtime → Prop} {s : Runtime} :
    Prog.wp (updateState f) Q E s ↔ Q () { s with state := f s.state } := Iff.rfl

@[simp] theorem wp_stopWith {α : Type} {error : ApplyBinlogError} {Q : α → Runtime → Prop}
    {E : Stop ApplyBinlogError → Runtime → Prop} {s : Runtime} :
    Prog.wp (stopWith error : Stream α) Q E s ↔ E (.error error) s := Iff.rfl

/-- A decision continues with its value or stops with its error. -/
theorem wp_decided {α : Type} {result : Except ApplyBinlogError α} {Q : α → Runtime → Prop}
    {E : Stop ApplyBinlogError → Runtime → Prop} {s : Runtime} :
    Prog.wp (decided result) Q E s ↔
      (∀ value, result = .ok value → Q value s) ∧
        (∀ error, result = .error error → E (.error error) s) := by
  cases result with
  | ok value => simp [decided]
  | error error => simp [decided]

end World

end BinlogCdc
