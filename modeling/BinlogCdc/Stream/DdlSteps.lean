import BinlogCdc.Stream.Ddl
import BinlogCdc.Target.DdlLog

/-!
# The steps of the DDL handler

What the DDL handler may do with an event, one operation at a time, with the conditions
under which it does it. The handler is a run of such steps, whether it succeeds or stops;
everything that holds of all its runs is derived from the steps. The statement of an
event is executed right after its row was prepared, and for the legacy recovery of a
blocked row; nothing else executes it.
-/

namespace BinlogCdc

/-- The operation only reads. -/
def TargetOp.IsLook : TargetOp → Prop
  | .lockCheckpoint => True
  | .loadStore => True
  | .readJournal _ => True
  | .observe _ _ => True
  | .inventory => True
  | _ => False

/-- The event was observed in a state of the target schema. -/
def Observed (trace : List TraceEntry) (event : DdlEvent) (state : String) : Prop :=
  ∃ x ∈ trace, x.op = .observe event state

/-- The checkpoint at the end of a DDL event. -/
def DdlEvent.checkpoint (event : DdlEvent) : Checkpoint :=
  coordinateCheckpoint ⟨event.binlogFile, event.eventEndPosition⟩ "QueryEvent"

/-- The event is one of the legacy events whose statement is corrected. -/
def DdlSemantics.IsLegacy (semantics : DdlSemantics) (event : DdlEvent) : Prop :=
  semantics.isLegacyJsonCheckCollisionEvent event.rawSql = true

/-- Write the event's row. -/
def Target.putRow (target : Target) (row : JournalRow) : Target :=
  target.withJournal (target.db.journal.put row)

section PutRow

variable (target : Target) (row : JournalRow)

@[simp] theorem Target.putRow_transaction : (target.putRow row).transaction = target.transaction :=
  rfl
@[simp] theorem Target.putRow_db_work : (target.putRow row).db.work = target.db.work := rfl
@[simp] theorem Target.putRow_db_ddl : (target.putRow row).db.ddl = target.db.ddl := rfl
@[simp] theorem Target.putRow_db_checkpoint :
    (target.putRow row).db.checkpoint = target.db.checkpoint := rfl
@[simp] theorem Target.putRow_view_work : (target.putRow row).view.work = target.view.work := rfl
@[simp] theorem Target.putRow_journal :
    (target.putRow row).db.journal = target.db.journal.put row := rfl

/-- The row just written is found. -/
@[simp] theorem Journal.row_put (journal : Journal) (event : DdlEvent)
    (evidence : DdlSemanticEvidence) (status : DdlReplayStatus) :
    (journal.put ⟨event, evidence, status⟩).row event = some ⟨event, evidence, status⟩ :=
  row_put_of_key_eq rfl

end PutRow

section ExecuteDdl

variable (target : Target) (event : DdlEvent) (sql : String)

@[simp] theorem Target.executeDdl_transaction :
    (target.executeDdl event sql).transaction = none := rfl
@[simp] theorem Target.executeDdl_db_work :
    (target.executeDdl event sql).db.work = target.view.work := rfl
@[simp] theorem Target.executeDdl_db_ddl :
    (target.executeDdl event sql).db.ddl = target.db.ddl ++ [⟨event, sql⟩] := rfl
@[simp] theorem Target.executeDdl_view_work :
    (target.executeDdl event sql).view.work = target.view.work := by
  rw [Target.view_of_none rfl, executeDdl_db_work]

theorem Target.OnlyWork.executeDdl_journal {target : Target} (h : target.OnlyWork) :
    (target.executeDdl event sql).db.journal = target.db.journal := h.view_journal

theorem Target.OnlyWork.executeDdl_checkpoint {target : Target} (h : target.OnlyWork) :
    (target.executeDdl event sql).db.checkpoint = target.db.checkpoint := h.view_checkpoint

end ExecuteDdl

/-- Nothing is open but the transaction the handler found, and that holds only work. -/
structure Target.Free (entry : Option TargetChanges) (target : Target) : Prop where
  /-- The open transaction holds only work. -/
  onlyWork : target.OnlyWork
  /-- It is the one the handler found. -/
  transaction : target.transaction = none ∨ target.transaction = entry

theorem Target.Free.putRow {entry : Option TargetChanges} {target : Target}
    (h : target.Free entry) (row : JournalRow) : (target.putRow row).Free entry := ⟨h.1, h.2⟩

/-- A free connection is free. -/
theorem Target.free_of_none {entry : Option TargetChanges} {target : Target}
    (h : target.transaction = none) : target.Free entry := ⟨onlyWork_of_none h, Or.inl h⟩

/-- One operation of the DDL handler for an event: the transaction the handler found, whether
the checkpoint transaction may be committed, the target and the trace before the operation, the
operation, and the target after it. -/
inductive DdlAction (semantics : DdlSemantics) (entry : Option TargetChanges) (event : DdlEvent)
    (committing : Bool) (target : Target) (trace : List TraceEntry) : TargetOp → Target → Prop where
  /-- Read the checkpoint, the journal, the target schema or the inventory. -/
  | look {op : TargetOp} (hop : op.IsLook) : DdlAction semantics entry event committing target trace op target
  /-- Record an event without a translation. -/
  | recordPending (hnone : target.db.journal.row event = none) :
    DdlAction semantics entry event committing target trace (.writeJournal event)
      (target.putRow ⟨event, pendingEvidence, .translationPending⟩)
  /-- Record the evidence. -/
  | prepare (evidence : DdlSemanticEvidence) (hrow : target.db.journal.Unprepared event)
    (hcomplete : evidence.isComplete = true) :
    DdlAction semantics entry event committing target trace (.writeJournal event)
      (target.putRow ⟨event, evidence, .prepared⟩)
  /-- The target has the expected state of a prepared event. -/
  | markApplied (evidence : DdlSemanticEvidence)
    (hrow : target.db.journal.row event = some ⟨event, evidence, .prepared⟩)
    (hobserved : Observed trace event evidence.expectedPostState) :
    DdlAction semantics entry event committing target trace (.writeJournal event)
      (target.putRow ⟨event, evidence, .applied⟩)
  /-- The prepared event waits for an operator. -/
  | markBlocked (evidence : DdlSemanticEvidence)
    (hrow : target.db.journal.row event = some ⟨event, evidence, .prepared⟩) :
    DdlAction semantics entry event committing target trace (.writeJournal event)
      (target.putRow ⟨event, evidence, .blocked⟩)
  /-- The target has the expected state of a blocked event. -/
  | recover (old new : DdlSemanticEvidence)
    (hrow : target.db.journal.row event = some ⟨event, old, .blocked⟩)
    (hnew : RecoveredEvidence semantics.IsLegacy event old new)
    (hobserved : Observed trace event new.expectedPostState) :
    DdlAction semantics entry event committing target trace (.writeJournal event)
      (target.putRow ⟨event, new, .applied⟩)
  /-- Execute the corrected statement of a blocked legacy event. -/
  | executeLegacy (sql : String) (hfree : target.Free entry)
    (hlegacy : semantics.IsLegacy event)
    (hrow : ∃ evidence, target.db.journal.row event = some ⟨event, evidence, .blocked⟩) :
    DdlAction semantics entry event committing target trace (.executeDdl event sql) (target.executeDdl event sql)
  /-- Begin the checkpoint transaction of an applied event. -/
  | begin (hfree : target.Free entry)
    (hrow : ∃ evidence, target.db.journal.row event = some ⟨event, evidence, .applied⟩) :
    DdlAction semantics entry event committing target trace .begin target.begin
  /-- Move the row to checkpointed in the checkpoint transaction. -/
  | mark (htransaction : target.transaction = some {})
    (hrow : ∃ evidence, target.db.journal.row event = some ⟨event, evidence, .applied⟩)
    (hbefore : ensureAutomaticDdlCheckpointPredecessor target.db.checkpoint event = .ok ()) :
    DdlAction semantics entry event committing target trace (.markCheckpointed event)
      (target.markCheckpointed event)
  /-- Write the checkpoint in the checkpoint transaction. -/
  | save (htransaction : target.transaction = some { checkpointed := [event] })
    (hrow : ∃ evidence, target.db.journal.row event = some ⟨event, evidence, .applied⟩)
    (hbefore : ensureAutomaticDdlCheckpointPredecessor target.db.checkpoint event = .ok ()) :
    DdlAction semantics entry event committing target trace (.saveCheckpoint event.checkpoint)
      (target.saveCheckpoint event.checkpoint)
  /-- Commit the checkpoint transaction. -/
  | commit (hcommitting : committing = true) (htransaction : target.transaction =
      some { checkpoint := some event.checkpoint, checkpointed := [event] })
    (hrow : ∃ evidence, target.db.journal.row event = some ⟨event, evidence, .applied⟩)
    (hbefore : ensureAutomaticDdlCheckpointPredecessor target.db.checkpoint event = .ok ()) :
    DdlAction semantics entry event committing target trace .commit target.commit
  /-- Roll the checkpoint transaction back. -/
  | rollback (htransaction : ∃ changes, target.transaction = some changes ∧ changes.work = []) :
    DdlAction semantics entry event committing target trace .rollback target.rollback

/-- One step of the DDL handler. -/
inductive DdlStep (semantics : DdlSemantics) (entry : Option TargetChanges) (event : DdlEvent)
    (committing : Bool) : Runtime → Runtime → Prop where
  /-- Nothing happens on the target. -/
  | quiet {s s' : Runtime} (htarget : s'.target = s.target) (htrace : s'.trace = s.trace)
    (htransaction : s'.targetTransaction = s.targetTransaction) (hstate : s'.state = s.state)
    (hregistry : s'.registry = s.registry)
    (hfile : s'.currentFile = s.currentFile ∨ s'.currentFile = event.binlogFile) :
    DdlStep semantics entry event committing s s'
  /-- One operation. -/
  | act {s : Runtime} {op : TargetOp} {target : Target}
    (h : DdlAction semantics entry event committing s.target s.trace op target) :
    DdlStep semantics entry event committing s (s.perform op target)
  /-- Record the evidence and execute the statement of it. -/
  | prepareAndExecute {s : Runtime} (evidence : DdlSemanticEvidence) (sql : String)
    (hfree : s.target.Free entry) (hrow : s.target.db.journal.Unprepared event)
    (hcomplete : evidence.isComplete = true) (hsql : evidence.generatedSql = some sql) :
    DdlStep semantics entry event committing s
      ((s.perform (.writeJournal event) (s.target.putRow ⟨event, evidence, .prepared⟩)).perform
        (.executeDdl event sql)
        ((s.target.putRow ⟨event, evidence, .prepared⟩).executeDdl event sql))

/-- A run of the DDL handler. Only a run that succeeds commits the checkpoint transaction. -/
abbrev DdlRun (semantics : DdlSemantics) (entry : Option TargetChanges) (event : DdlEvent)
    (committing : Bool) : Runtime → Runtime → Prop :=
  Relation.ReflTransGen (DdlStep semantics entry event committing)

section Runs

variable {semantics : DdlSemantics} {entry : Option TargetChanges} {event : DdlEvent}
  {committing : Bool} {s₀ s s' : Runtime}

/-- A refused question changes nothing. -/
theorem DdlStep.advance (s : Runtime) : DdlStep semantics entry event committing s s.advance :=
  .quiet rfl rfl rfl rfl rfl (Or.inl rfl)

theorem DdlRun.act (h : DdlRun semantics entry event committing s₀ s) {op : TargetOp} {target : Target}
    (haction : DdlAction semantics entry event committing s.target s.trace op target) :
    DdlRun semantics entry event committing s₀ (s.perform op target) := h.tail (.act haction)

theorem DdlRun.advance (h : DdlRun semantics entry event committing s₀ s) :
    DdlRun semantics entry event committing s₀ s.advance := h.tail (.advance s)

/-- A run without the commit is a run. -/
theorem DdlRun.uncommitted (h : DdlRun semantics entry event false s₀ s) :
    DdlRun semantics entry event true s₀ s := by
  refine Relation.ReflTransGen.mono ?_ _ _ h
  intro s s' step
  cases step with
  | quiet htarget htrace htransaction hstate hregistry hfile =>
    exact .quiet htarget htrace htransaction hstate hregistry hfile
  | act haction =>
    refine .act ?_
    cases haction with
    | look hop => exact .look hop
    | recordPending hnone => exact .recordPending hnone
    | prepare evidence hrow hcomplete => exact .prepare evidence hrow hcomplete
    | markApplied evidence hrow hobserved => exact .markApplied evidence hrow hobserved
    | markBlocked evidence hrow => exact .markBlocked evidence hrow
    | recover old new hrow hnew hobserved => exact .recover old new hrow hnew hobserved
    | executeLegacy sql hfree hlegacy hrow => exact .executeLegacy sql hfree hlegacy hrow
    | begin hfree hrow => exact .begin hfree hrow
    | mark ht hrow hbefore => exact .mark ht hrow hbefore
    | save ht hrow hbefore => exact .save ht hrow hbefore
    | commit hcommitting => cases hcommitting
    | rollback ht => exact .rollback ht
  | prepareAndExecute evidence sql hfree hrow hcomplete hsql =>
    exact .prepareAndExecute evidence sql hfree hrow hcomplete hsql

/-- The handler's own bookkeeping changes nothing on the target. -/
theorem DdlRun.quiet (h : DdlRun semantics entry event committing s₀ s) {s' : Runtime}
    (htarget : s'.target = s.target) (htrace : s'.trace = s.trace)
    (htransaction : s'.targetTransaction = s.targetTransaction) (hstate : s'.state = s.state)
    (hregistry : s'.registry = s.registry)
    (hfile : s'.currentFile = s.currentFile ∨ s'.currentFile = event.binlogFile) :
    DdlRun semantics entry event committing s₀ s' :=
  h.tail (.quiet htarget htrace htransaction hstate hregistry hfile)

/-- What no step of the handler touches. -/
theorem DdlRun.record (h : DdlRun semantics entry event committing s s') :
    s'.targetTransaction = s.targetTransaction ∧ s'.state = s.state ∧ s'.registry = s.registry ∧
      (s'.currentFile = s.currentFile ∨ s'.currentFile = event.binlogFile) := by
  induction h with
  | refl => exact ⟨rfl, rfl, rfl, Or.inl rfl⟩
  | tail _ step ih =>
    obtain ⟨htransaction, hstate, hregistry, hfile⟩ := ih
    cases step with
    | quiet _ _ ht hs hr hf =>
      refine ⟨ht.trans htransaction, hs.trans hstate, hr.trans hregistry, ?_⟩
      rcases hf with hf | hf
      · rw [hf]
        exact hfile
      · exact Or.inr hf
    | act => exact ⟨htransaction, hstate, hregistry, hfile⟩
    | prepareAndExecute => exact ⟨htransaction, hstate, hregistry, hfile⟩

/-- The trace only grows. -/
theorem DdlRun.trace_prefix (h : DdlRun semantics entry event committing s s') : s.trace <+: s'.trace := by
  induction h with
  | refl => exact List.prefix_refl _
  | tail _ step ih =>
    cases step with
    | quiet _ htrace => exact htrace ▸ ih
    | act => exact ih.trans (List.prefix_append _ _)
    | prepareAndExecute =>
      exact ih.trans ((List.prefix_append _ _).trans (List.prefix_append _ _))

end Runs

theorem Observed.mono {trace trace' : List TraceEntry} {event : DdlEvent} {state : String}
    (h : Observed trace event state) (hsub : trace <+: trace') : Observed trace' event state := by
  obtain ⟨x, hx, hop⟩ := h
  exact ⟨x, hsub.subset hx, hop⟩

end BinlogCdc
