import BinlogCdc.Stream.Durability
import BinlogCdc.Stream.LogRefinement
import BinlogCdc.Stream.OpenTransaction

/-!
# Histories of stream attempts

An attempt stops anywhere, and the next one begins with what it left durable. Over all such
histories a DDL event is executed at most once and its journal row keeps what was recorded
when it was prepared.
-/

namespace BinlogCdc

/-- A history of stream attempts, with all their operations: each attempt begins with what the
one before it left durable. -/
inductive History (semantics : DdlSemantics) (base : TargetDb) :
    List TraceEntry → TargetDb → Prop where
  /-- Nothing happened yet. -/
  | start : History semantics base [] base
  /-- One more attempt, in any world and over any events. -/
  | attempt {trace : List TraceEntry} {db : TargetDb} (h : History semantics base trace db)
    (world : World) (hsemantics : world.semantics = semantics)
    (sourceIdentity table name : String) (groupConfig : TargetTransactionGroupConfig)
    (lastCheckpoint : Option Checkpoint) (sourceDatabase : Option String) (currentFile : String)
    (inputs : List SourceStreamEvent) :
    History semantics base
      (trace ++ (streamEvents world ⟨sourceIdentity, groupConfig, .targetTable table name⟩ inputs
        (.attempt db lastCheckpoint sourceDatabase currentFile)).2.trace)
      (streamEvents world ⟨sourceIdentity, groupConfig, .targetTable table name⟩ inputs
        (.attempt db lastCheckpoint sourceDatabase currentFile)).2.target.db

/-- A history moves along a run of the DDL log. -/
theorem History.log {semantics : DdlSemantics} {base db : TargetDb} {trace : List TraceEntry}
    (h : History semantics base trace db) :
    DdlLog.Run semantics.IsLegacy base.ddlLog db.ddlLog := by
  induction h with
  | start => exact .refl
  | attempt _ world hsemantics sourceIdentity table name groupConfig lastCheckpoint sourceDatabase
      currentFile inputs ih =>
    subst hsemantics
    have hmode : (StreamConfig.mk sourceIdentity groupConfig (.targetTable table name)).checkpoint =
        .targetTable table name := rfl
    exact ih.trans (streamEvents_log hmode (Runtime.attempt_sound ..) inputs)

/-! ## Executions and journal rows -/

/-- From the preparation of a row on, its identity and all of its evidence stay. -/
def EvidenceNeverChanges (semantics : DdlSemantics) (base : TargetDb) : Prop :=
  ∀ trace db trace' later event row row', History semantics base trace db →
    History semantics db trace' later → db.journal.row event = some row →
    row.status ≠ .translationPending → later.journal.row event = some row' →
    row'.event = row.event ∧ row'.evidence.generatedSql = row.evidence.generatedSql ∧
      row'.evidence.preState = row.evidence.preState ∧
      row'.evidence.expectedPostState = row.evidence.expectedPostState

/-- A world in which the new column is not what was expected when the event was prepared; the
expected state computed again is. -/
def driftedWorld : World :=
  { alterWorld 0 with
    inventory := fun tick => { (alterWorld 0).inventory tick with
      observeTargetState := fun _ _ => .ok "with c and a default"
      expectedTargetState := fun _ _ => .ok "with c and a default" } }

/-- The new column, as the only event. -/
def alterOnly : List SourceStreamEvent := [queryAt 50 alterSql]

/-- An attempt at the new column. -/
def alterAttempt (world : World) (db : TargetDb) : Runtime :=
  (streamEvents world ⟨"source", ⟨1, 0⟩, .targetTable "cdc" "stream"⟩ alterOnly
    (.attempt db none (some "app") "bin.000001")).2

/-- The DDL event of the new column. -/
def alterEvent : DdlEvent :=
  ⟨"source#server-id=1", 1, "bin.000001", 40, 50, "app", alterSql⟩

/-- A world in which the process dies right after it executed the new column. -/
def interruptedAlterWorld : World :=
  { alterWorld 0 with outcome := fun tick => if tick < 6 then .done else .crashed }

end BinlogCdc
