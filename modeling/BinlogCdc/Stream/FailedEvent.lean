import BinlogCdc.Core.Frame
import BinlogCdc.Stream.Durability

/-!
# Events that fail

What an error of the transactional handler leaves behind. Only a failure of the event handlers is
answered by a rollback. A failure of a commit, or of the checkpoint written before it, leaves the
transaction and the stream's record of it open: the caller gives the connection up.
-/

namespace BinlogCdc

/-! ## What the handlers leave alone -/

/-- The operation begins or ends a transaction of the stream. -/
def TargetOp.IsBoundary : TargetOp → Prop
  | .begin => True
  | .commit => True
  | .rollback => True
  | _ => False

/-- Between two states no transaction was begun, committed or rolled back. -/
def NoBoundary (s s' : Runtime) : Prop :=
  ∃ issued, s'.trace = s.trace ++ issued ∧ ∀ x ∈ issued, ¬x.op.IsBoundary

/-- Nor was the stream's record touched. -/
structure Quiet (s s' : Runtime) : Prop where
  record : s'.targetTransaction = s.targetTransaction
  noBoundary : NoBoundary s s'

theorem NoBoundary.refl (s : Runtime) : NoBoundary s s := ⟨[], by simp, by simp⟩

theorem NoBoundary.trans {s s' s'' : Runtime} (h : NoBoundary s s') (h' : NoBoundary s' s'') :
    NoBoundary s s'' := by
  obtain ⟨issued, htrace, hissued⟩ := h
  obtain ⟨more, htrace', hmore⟩ := h'
  refine ⟨issued ++ more, by rw [htrace', htrace, List.append_assoc], ?_⟩
  intro x hx
  rcases List.mem_append.mp hx with hx | hx
  · exact hissued x hx
  · exact hmore x hx

theorem NoBoundary.of_trace {s s' : Runtime} (h : s'.trace = s.trace) : NoBoundary s s' :=
  ⟨[], by simpa using h, by simp⟩

theorem NoBoundary.perform {op : TargetOp} (hop : ¬op.IsBoundary) (s : Runtime) (target : Target) :
    NoBoundary s (s.perform op target) :=
  ⟨[⟨op, s.target, target⟩], rfl, by simpa using hop⟩

theorem quiet_frame : Prog.Frame Quiet where
  refl := fun s => ⟨rfl, .refl s⟩
  trans := fun h h' => ⟨h'.record.trans h.record, h.noBoundary.trans h'.noBoundary⟩

section Handlers

variable (world : World)

theorem quiet_operate {α : Type} (wrap : String → ApplyBinlogError) {label : α → TargetOp}
    (hlabel : ∀ a, ¬(label a).IsBoundary) (effect : Target → Except String (α × Target)) :
    Prog.Respects Quiet (operate world wrap label effect) := by
  intro s
  unfold operate
  cases world.outcome s.tick with
  | crashed => exact ⟨rfl, .of_trace rfl⟩
  | refused message => exact ⟨rfl, .of_trace rfl⟩
  | done =>
    dsimp only
    cases effect s.target with
    | error message => exact ⟨rfl, .of_trace rfl⟩
    | ok result => exact ⟨rfl, .perform (hlabel _) s _⟩

theorem quiet_transition (wrap : String → ApplyBinlogError) {op : TargetOp} (hop : ¬op.IsBoundary)
    (effect : Target → Target) : Prog.Respects Quiet (transition world wrap op effect) :=
  quiet_operate world wrap (fun _ => hop) _

theorem quiet_updateState (f : StructuredEventState → StructuredEventState) :
    Prog.Respects Quiet (updateState f) :=
  fun _ => ⟨rfl, .of_trace rfl⟩

theorem quiet_stopWith {α : Type} (error : ApplyBinlogError) :
    Prog.Respects Quiet (stopWith error : Stream α) :=
  quiet_frame.fail _

theorem quiet_decided {α : Type} (result : Except ApplyBinlogError α) :
    Prog.Respects Quiet (decided result) := by
  cases result with
  | ok value => exact quiet_frame.pure value
  | error error => exact quiet_stopWith error

theorem quiet_applyTableMapEvent (coordinate : BinlogCoordinate) (tableMap : SourceTableMap) :
    Prog.Respects Quiet (applyTableMapEvent world coordinate tableMap) := by
  refine quiet_frame.bind (quiet_frame.reads _) fun state => ?_
  split_ifs
  · exact quiet_frame.bind (quiet_updateState _) fun _ => quiet_frame.pure _
  · refine quiet_frame.bind (quiet_updateState _) fun _ => ?_
    refine quiet_frame.bind (quiet_decided _) fun mapped => ?_
    cases mapped with
    | none => exact quiet_frame.bind (quiet_updateState _) fun _ => quiet_frame.pure _
    | some table =>
      refine quiet_frame.bind ?_ fun _ => quiet_frame.pure _
      exact fun _ => ⟨rfl, .of_trace rfl⟩

theorem quiet_applyRowEvent (coordinate : BinlogCoordinate)
    (plan : Except ApplyBinlogError (List PlannedRow)) :
    Prog.Respects Quiet (applyRowEvent world coordinate plan) := by
  refine quiet_frame.bind (quiet_decided _) fun rows => ?_
  refine quiet_frame.bind (quiet_frame.forEach (fun row => ?_) rows) fun _ => quiet_frame.pure _
  unfold applyPlannedRow
  match row with
  | .error message => exact quiet_stopWith _
  | .ok none => exact quiet_frame.pure ()
  | .ok (some change) => exact quiet_transition world _ (by exact not_false) _

theorem quiet_applyQueryContext : Prog.Respects Quiet (applyQueryContext world) := by
  refine quiet_frame.bind (quiet_frame.reads _) fun state => ?_
  split_ifs
  · exact quiet_stopWith _
  · refine quiet_frame.forEach (fun intvar => ?_) _
    unfold applyIntvar
    split_ifs
    · exact quiet_stopWith _
    · exact quiet_transition world _ (by exact not_false) _

theorem quiet_applyQueryStatement (coordinate : BinlogCoordinate) (query : QueryEvent) :
    Prog.Respects Quiet (applyQueryStatement world coordinate query) := by
  unfold applyQueryStatement
  dsimp only
  cases classifyStatement (normalizeStatement query.sqlStatement.toList) with
  | replay =>
    exact quiet_frame.bind (quiet_transition world _ (by exact not_false) _) fun _ => quiet_frame.pure _
  | skip => exact quiet_frame.pure _
  | quarantine reason => exact quiet_stopWith _

theorem quiet_applyQueryEvent (coordinate : BinlogCoordinate) (query : QueryEvent) :
    Prog.Respects Quiet (applyQueryEvent world coordinate query) := by
  refine quiet_frame.bind (quiet_frame.reads _) fun state => ?_
  match queryEventPrecheck state query with
  | .error error => exact quiet_frame.bind (quiet_updateState _) fun _ => quiet_stopWith _
  | .ok (some policy) => exact quiet_frame.bind (quiet_updateState _) fun _ => quiet_frame.pure _
  | .ok none =>
    refine quiet_frame.bind (quiet_decided _) fun _ => ?_
    refine quiet_frame.bind (quiet_applyQueryContext world) fun _ => ?_
    refine quiet_frame.andThen (quiet_applyQueryStatement world coordinate query) ?_
    exact fun _ => ⟨rfl, .of_trace rfl⟩

/-- The event handlers neither end the transaction nor touch the record of it. -/
theorem quiet_handleStructuredEvent (header : EventHeader) (event : BinlogEvent) :
    Prog.Respects Quiet (handleStructuredEvent world header event) := by
  have hrows : ∀ (tableId : Nat) (s : Runtime) (c : Stream EventPolicy),
      Prog.Respects Quiet c →
      Prog.Respects Quiet (if s.state.isIgnoredTableId tableId then pure .ignore else c) := by
    intro tableId s c hc
    split_ifs
    · exact quiet_frame.pure _
    · exact hc
  refine quiet_frame.bind (quiet_frame.reads _) fun s => ?_
  refine quiet_frame.bind ?_ fun policy => quiet_frame.pure _
  unfold applyStructuredEvent
  cases event with
  | tableMap tableMap => exact quiet_applyTableMapEvent world _ tableMap
  | writeRows rows =>
    exact quiet_frame.bind (quiet_frame.reads _) fun s =>
      hrows rows.tableId s _ (quiet_applyRowEvent world _ _)
  | updateRows rows =>
    exact quiet_frame.bind (quiet_frame.reads _) fun s =>
      hrows rows.tableId s _ (quiet_applyRowEvent world _ _)
  | deleteRows rows =>
    exact quiet_frame.bind (quiet_frame.reads _) fun s =>
      hrows rows.tableId s _ (quiet_applyRowEvent world _ _)
  | intVar intvarType value =>
    exact quiet_frame.bind (quiet_updateState _) fun _ => quiet_frame.pure _
  | userVar name => exact quiet_frame.bind (quiet_updateState _) fun _ => quiet_frame.pure _
  | query query => exact quiet_applyQueryEvent world _ query
  | _ => exact quiet_frame.pure _

theorem quiet_lockValidateAndSaveCheckpoint (name : String) (checkpoint : Checkpoint) :
    Prog.Respects Quiet (lockValidateAndSaveCheckpoint world name checkpoint) := by
  refine quiet_frame.bind (quiet_operate world _ (by exact fun _ => not_false) _) fun current => ?_
  cases current with
  | none => exact quiet_stopWith _
  | some current =>
    refine quiet_frame.bind (quiet_decided _) fun _ => ?_
    exact quiet_transition world _ (by exact not_false) _

end Handlers

/-! ## Failures of the commit -/

section Failures

variable {world : World} {config : StreamConfig} {table name : String} {s : Runtime}

/-- A commit that fails leaves the transaction as it is. -/
theorem wp_commitTargetGroup_failed (hopen : s.targetTransaction.isOpen = true) :
    Prog.wp (commitTargetGroup world config) (fun _ _ => True)
      (fun _ s' => s'.targetTransaction.isOpen = true ∧ NoBoundary s s') s := by
  have hcommit : ∀ s', s'.targetTransaction.isOpen = true → NoBoundary s s' →
      Prog.wp (commitIfOpen world) (fun _ _ => True)
        (fun _ s'' => s''.targetTransaction.isOpen = true ∧ NoBoundary s s'') s' := by
    intro s' hopen' hquiet
    simp only [commitIfOpen, finishIfOpen, Prog.wp_bind, Prog.wp_reads, hopen', if_true]
    exact wp_transition trivial fun _ => ⟨hopen', hquiet.trans (.of_trace rfl)⟩
  unfold commitTargetGroup
  simp only [Prog.wp_bind, Prog.wp_reads, wp_updateTransaction]
  split
  · next checkpoint table name hpending htable hname =>
    rw [Prog.wp_bind, Prog.wp_onError]
    refine Prog.wp_mono ((quiet_lockValidateAndSaveCheckpoint world name checkpoint).wp _) ?_ ?_
    · intro _ s' hquiet
      refine hcommit s' ?_ (NoBoundary.trans (.of_trace rfl) hquiet.noBoundary)
      rw [hquiet.record]
      exact hopen
    · intro stop s' hquiet
      have hopen' : s'.targetTransaction.isOpen = true := by
        rw [hquiet.record]
        exact hopen
      have hquiet' : NoBoundary s s' := NoBoundary.trans (.of_trace rfl) hquiet.noBoundary
      cases stop with
      | crash => exact ⟨hopen', hquiet'⟩
      | error error =>
        simp only [Prog.wp_bind, wp_updateTransaction, wp_stopWith]
        exact ⟨hopen', hquiet'.trans (.of_trace rfl)⟩
  · exact hcommit _ hopen (.of_trace rfl)

/-- The commit before an event: if it fails, the group is still there. -/
theorem wp_flushGroupedTransaction_failed (hvalid : s.targetTransaction.Valid) :
    Prog.wp (flushGroupedTransaction world config) (fun _ _ => True)
      (fun _ s' => s'.targetTransaction.isOpen = true ∧ NoBoundary s s') s := by
  unfold flushGroupedTransaction
  simp only [Prog.wp_bind, Prog.wp_reads]
  cases hcount : s.targetTransaction.hasCompletedSourceTransactions with
  | false => exact trivial
  | true =>
    simp only [Bool.not_true, Bool.false_eq_true, if_false, Prog.wp_bind, wp_updateTransaction,
      hvalid.noFile, Prog.wp_onError]
    refine Prog.wp_mono (wp_commitTargetGroup_failed (hvalid.counted hcount)) ?_ ?_
    · intro _ _ _
      exact trivial
    · intro stop s' hfailed
      have hquiet : NoBoundary s s' := NoBoundary.trans (.of_trace rfl) hfailed.2
      cases stop with
      | crash => exact ⟨hfailed.1, hquiet⟩
      | error error =>
        exact ⟨hfailed.1, hquiet.trans (.of_trace rfl)⟩

end Failures

/-! ## A record that is not open is the initial one -/

/-- Without a transaction the stream's record of it is as it was at the start. -/
def StreamCore.Idle (c : StreamCore) : Prop :=
  c.targetTransaction.isOpen = false → c.targetTransaction = {}

namespace StreamCore

variable {codec : RowCodec} {config : TargetTransactionGroupConfig} {c : StreamCore}
  {header : EventHeader} {event : BinlogEvent}

theorem idle_of_isOpen (h : c.targetTransaction.isOpen = true) : c.Idle := by
  intro hclosed
  rw [h] at hclosed
  cases hclosed

theorem flushed_idle (h : c.Idle) : c.flushed.Idle := by
  unfold flushed
  split_ifs
  · exact fun _ => rfl
  · exact h

theorem begun_idle (h : c.Idle) (now : Nat) : (c.begun now).Idle := by
  unfold begun
  split_ifs
  · exact h
  · exact idle_of_isOpen rfl

theorem saved_idle (event : BinlogEvent) (h : c.Idle) (resume : Option BinlogCoordinate) :
    (c.saved event resume).Idle := by
  unfold saved
  cases resume with
  | none => exact h
  | some coordinate =>
    dsimp only
    split_ifs with hopen
    · exact idle_of_isOpen hopen
    · intro hclosed
      rw [stored_targetTransaction] at hclosed ⊢
      exact h hclosed

theorem counted_idle (h : c.Idle) : c.counted.Idle := by
  unfold Idle counted TargetTransaction.recordSourceTransaction
  by_cases hopen : c.targetTransaction.isOpen = true
  · rw [if_pos hopen]
    exact idle_of_isOpen (c := { c with targetTransaction :=
      { c.targetTransaction with
        sourceTransactions := c.targetTransaction.sourceTransactions + 1 } }) hopen
  · rw [if_neg hopen]
    exact h

theorem finished_idle (h : c.Idle) (resume : Option BinlogCoordinate) (now : Nat) :
    (c.finished config event resume now).Idle := by
  unfold finished
  dsimp only
  split_ifs
  · exact fun _ => rfl
  · exact saved_idle event (counted_idle h) resume

theorem settled_idle (h : c.Idle) (now : Nat) : (c.settled config event now).Idle := by
  unfold settled
  split_ifs
  · exact flushed_idle h
  · exact h

theorem ready_idle (h : c.Idle) (now : Readings) : (c.ready config event now).Idle := by
  unfold ready entered
  split_ifs
  · exact begun_idle (settled_idle h now.before) _
  · exact settled_idle h now.before

theorem applied_idle (h : c.Idle) (now : Readings) :
    (c.applied codec config header event now).Idle := by
  have hhandled : ((c.ready config event now).handled codec header event).Idle := ready_idle h now
  unfold applied closed
  dsimp only
  split_ifs
  · exact finished_idle hhandled _ _
  · exact saved_idle event hhandled _

end StreamCore

section Runs

variable {world : World} {config : StreamConfig} {table name : String} {s : Runtime}

/-- The record stays so over the events of the source. -/
theorem wp_processStreamEvent_idle (hmode : config.checkpoint = .targetTable table name)
    (hsound : s.core.Sound) (h : s.core.Idle) (input : SourceStreamEvent) :
    Prog.wp (processStreamEvent world config input) (fun _ s' => s'.core.Idle)
      (fun _ _ => True) s := by
  have hlocated : (s.core.located input.sourcePosition).Idle := h
  refine wp_processStreamEvent hmode hsound ?_ ?_ ?_ ?_ ?_ ?_
  · intro now s' _ _ _ hcore
    rw [hcore]
    exact StreamCore.applied_idle hlocated now
  · intro _ _ _ _ _ _
    exact trivial
  · intro _ _ _ _
    exact trivial
  · intro query s₁ s' _ _ hcore hrun _
    have hrecord := hrun.record.1
    intro hclosed
    rw [Runtime.core_targetTransaction, hrecord] at hclosed ⊢
    have hflushed := StreamCore.flushed_idle hlocated
    rw [← hcore] at hflushed
    exact hflushed hclosed
  · intro _ _ _ _ _ _ _ _
    exact trivial
  · intro _ _ _ _ _ _ _ _
    exact trivial

/-- A state that a stream attempt has reached, with the position of the next event. -/
structure ReachedBefore (world : World) (config : StreamConfig) (s : Runtime) : Prop where
  run : ∃ db lastCheckpoint sourceDatabase currentFile handled reached position,
    (streamEvents world config handled).Reaches
      (Runtime.attempt db lastCheckpoint sourceDatabase currentFile) reached ∧
    s = { reached with state := reached.state.recordEventPosition position }

theorem ReachedBefore.sound (hmode : config.checkpoint = .targetTable table name)
    (h : ReachedBefore world config s) : s.core.Sound := by
  obtain ⟨db, lastCheckpoint, sourceDatabase, currentFile, handled, reached, position, hreaches,
    rfl⟩ := h.run
  have hfollowed := followed_of_reaches hmode
    (followed_attempt world.semantics world.codec db lastCheckpoint sourceDatabase currentFile)
    hreaches
  exact hfollowed.sound.located position

theorem ReachedBefore.idle (hmode : config.checkpoint = .targetTable table name)
    (h : ReachedBefore world config s) : s.core.Idle := by
  obtain ⟨db, lastCheckpoint, sourceDatabase, currentFile, handled, reached, position, hreaches,
    rfl⟩ := h.run
  have hall : Prog.wp (streamEvents world config handled)
      (fun _ s' => s'.core.Sound ∧ s'.core.Idle) (fun _ _ => True)
      (Runtime.attempt db lastCheckpoint sourceDatabase currentFile) := by
    refine Prog.wp_forEach (fun _ s' => s'.core.Sound ∧ s'.core.Idle) handled
      (processStreamEvent world config) ?_ ⟨Runtime.attempt_sound _ _ _ _, fun _ => rfl⟩
    rintro _ input _ s' _ ⟨hsound, hidle⟩
    have hledger := @wp_processStreamEvent_ledger world _ _ _ hmode _ hsound input
    refine Prog.wp_mono (Prog.wp_and hledger (wp_processStreamEvent_idle hmode hsound hidle input)) ?_ ?_
    · rintro _ s'' ⟨hconsumed, hidle'⟩
      exact ⟨hconsumed.sound, hidle'⟩
    · intro _ _ _
      exact trivial
  exact (Prog.wp_value hall hreaches).2

end Runs

/-! ## What a failed event leaves -/

section Failure

variable (world : World) (config : StreamConfig) (header : EventHeader) (event : BinlogEvent)

/-- The state in which the handlers find an event: after the commit that was due and BEGIN. -/
def ReadyAt (s s' : Runtime) : Prop :=
  ∃ opened,
    Performed s (s.core.readyScript config.groupConfig event ⟨world.clock s.tick, opened, 0⟩) s' ∧
      s'.core = s.core.ready config.groupConfig event ⟨world.clock s.tick, opened, 0⟩

/-- How an event can fail, with the error that is returned and the state that is left. -/
inductive EventFailure (s : Runtime) : ApplyBinlogError → Runtime → Prop
  /-- The commit due before the event failed: the group stays open. -/
  | commitBefore {error : ApplyBinlogError} {s' : Runtime}
      (hopen : s'.targetTransaction.isOpen = true) (hquiet : NoBoundary s s') :
      EventFailure s error s'
  /-- BEGIN failed: there is no transaction. -/
  | begin {message : String} {s' : Runtime} (hrecord : s'.targetTransaction = {})
      (hnone : s'.target.transaction = none) : EventFailure s (.target message) s'
  /-- The handlers failed and the transaction was rolled back. -/
  | rolledBack {cause : ApplyBinlogError} {s₂ s₃ : Runtime} (hready : ReadyAt world config event s s₂)
      (hfailed : handleStructuredEvent world header event s₂ = (.error (.error cause), s₃))
      (hopen : s₂.targetTransaction.isOpen = true) :
      EventFailure s cause
        { s₃.perform .rollback s₃.target.rollback with targetTransaction := {} }
  /-- The handlers failed and so did the rollback: its failure is the error. -/
  | rollbackFailed {cause : ApplyBinlogError} {message : String} {s₂ s₃ : Runtime}
      (hready : ReadyAt world config event s s₂)
      (hfailed : handleStructuredEvent world header event s₂ = (.error (.error cause), s₃))
      (hopen : s₃.targetTransaction.isOpen = true) :
      EventFailure s (.target message) s₃.advance
  /-- The handlers failed without a transaction. -/
  | noTransaction {cause : ApplyBinlogError} {s₂ s₃ : Runtime}
      (hready : ReadyAt world config event s s₂)
      (hfailed : handleStructuredEvent world header event s₂ = (.error (.error cause), s₃))
      (hrecord : s₃.targetTransaction = {}) (hnone : s₂.target.transaction = none) :
      EventFailure s cause s₃
  /-- The handlers succeeded, and the checkpoint or the commit failed: what was open stays so. -/
  | close {error : ApplyBinlogError} {outcome : StructuredEventOutcome} {s₂ s₃ s' : Runtime}
      (hready : ReadyAt world config event s s₂)
      (hhandled : handleStructuredEvent world header event s₂ = (.ok outcome, s₃))
      (hquiet : NoBoundary s₃ s')
      (hopen : s'.targetTransaction.isOpen = s₂.targetTransaction.isOpen)
      (hidle : s'.targetTransaction.isOpen = false → s'.targetTransaction = {}) :
      EventFailure s error s'

end Failure

section Failed

variable {world : World} {config : StreamConfig} {table name : String} {s : Runtime}
  {header : EventHeader} {event : BinlogEvent}

/-- What was open stays open, and a record that is not open stays as it is. -/
structure KeptOpen (s s' : Runtime) : Prop where
  isOpen : s'.targetTransaction.isOpen = s.targetTransaction.isOpen
  noBoundary : NoBoundary s s'
  record : s.targetTransaction.isOpen = false → s'.targetTransaction = s.targetTransaction

theorem keptOpen_frame : Prog.Frame KeptOpen where
  refl := fun s => ⟨rfl, .refl s, fun _ => rfl⟩
  trans := fun h h' => ⟨h'.isOpen.trans h.isOpen, h.noBoundary.trans h'.noBoundary, fun hclosed =>
    (h'.record (h.isOpen.trans hclosed)).trans (h.record hclosed)⟩

theorem Quiet.keptOpen {s s' : Runtime} (h : Quiet s s') : KeptOpen s s' :=
  ⟨congrArg TargetTransaction.isOpen h.record, h.noBoundary, fun _ => h.record⟩

theorem quiet_saveCoordinateCheckpoint (coordinate : BinlogCoordinate) (eventType : String) :
    Prog.Respects Quiet (saveCoordinateCheckpoint world config coordinate eventType) := by
  have hupdate : ∀ checkpoint : Option Checkpoint, Prog.Respects Quiet
      (Prog.update fun s : Runtime => { s with lastCheckpoint := checkpoint } : Stream Unit) :=
    fun _ _ => ⟨rfl, .of_trace rfl⟩
  have hload : Prog.Respects Quiet (loadCheckpoint world) := by
    refine quiet_frame.bind (quiet_operate world _ (by exact fun _ => not_false) _) fun _ => ?_
    exact quiet_frame.bind (hupdate _) fun _ => quiet_frame.pure _
  have hknown : Prog.Respects Quiet (checkpointForSkip world) := by
    refine quiet_frame.bind (quiet_frame.reads _) fun known => ?_
    cases known with
    | none => exact hload
    | some checkpoint => exact quiet_frame.pure _
  have hskip : ∀ checkpoint, Prog.Respects Quiet (shouldSkipCheckpoint world checkpoint) := by
    intro checkpoint
    unfold shouldSkipCheckpoint
    split_ifs
    · exact quiet_frame.pure _
    · refine quiet_frame.bind hknown fun current => ?_
      cases current with
      | none => exact quiet_frame.pure _
      | some current => exact quiet_frame.pure _
  unfold saveCoordinateCheckpoint
  dsimp only
  split_ifs
  · refine quiet_frame.bind (hskip _) fun skip => ?_
    split_ifs
    · exact quiet_frame.pure _
    · refine quiet_frame.bind (quiet_transition world _ (by exact not_false) _) fun _ => ?_
      exact hupdate _
  · exact quiet_frame.pure _

/-- Saving the checkpoint of an event keeps open what is open. -/
theorem wp_saveOutcomeCheckpoint_keptOpen (outcome : StructuredEventOutcome) :
    Prog.wp (saveOutcomeCheckpoint world config event outcome) (fun _ s' => KeptOpen s s')
      (fun _ s' => KeptOpen s s') s := by
  unfold saveOutcomeCheckpoint
  cases outcome.resumeCoordinate with
  | none => exact keptOpen_frame.refl s
  | some coordinate =>
    simp only [Prog.wp_bind, Prog.wp_reads]
    split
    · next hremember =>
      have hopen : s.targetTransaction.isOpen = true := by
        simp only [Bool.and_eq_true] at hremember
        exact hremember.1.1
      refine ⟨rfl, .of_trace rfl, fun hclosed => ?_⟩
      rw [hopen] at hclosed
      cases hclosed
    · rw [Prog.wp_bind]
      refine Prog.wp_mono ((quiet_saveCoordinateCheckpoint coordinate _).wp s) ?_ ?_
      · intro _ s' hquiet
        exact keptOpen_frame.trans hquiet.keptOpen ⟨rfl, .of_trace rfl, fun _ => rfl⟩
      · intro _ s' hquiet
        exact hquiet.keptOpen

/-- The end of a source transaction fails with the transaction open, if it was. -/
theorem wp_finishSourceTransaction_failed (hmode : config.checkpoint = .targetTable table name)
    (hvalid : s.targetTransaction.Valid) (outcome : StructuredEventOutcome) (forceFlush : Bool) :
    Prog.wp (finishSourceTransaction world config event outcome forceFlush) (fun _ _ => True)
      (fun _ s' => KeptOpen s s') s := by
  have hcounted : KeptOpen s
      { s with targetTransaction := s.targetTransaction.recordSourceTransaction } := by
    unfold TargetTransaction.recordSourceTransaction
    by_cases hopen : s.targetTransaction.isOpen = true
    · rw [if_pos hopen]
      refine ⟨rfl, .of_trace rfl, fun hclosed => ?_⟩
      rw [hopen] at hclosed
      cases hclosed
    · rw [if_neg hopen]
      exact keptOpen_frame.refl s
  have htable : config.checkpoint.table.isSome = true := by
    rw [hmode]
    rfl
  unfold finishSourceTransaction
  simp only [Prog.wp_bind, wp_updateTransaction, htable, if_true]
  have hvalid₁ : Prog.wp (saveOutcomeCheckpoint world config event outcome)
      (fun _ s₁ => s₁.targetTransaction.Valid) (fun _ _ => True)
      { s with targetTransaction := s.targetTransaction.recordSourceTransaction } := by
    refine wp_saveOutcomeCheckpoint hmode event outcome ?_ (fun _ _ _ => trivial)
    intro s₁ _ hcore
    have hrecord := congrArg StreamCore.targetTransaction hcore
    rw [Runtime.core_targetTransaction] at hrecord
    rw [hrecord]
    exact StreamCore.saved_valid event hvalid.recordSourceTransaction _
  refine Prog.wp_mono (Prog.wp_and hvalid₁ (wp_saveOutcomeCheckpoint_keptOpen outcome)) ?_ ?_
  · rintro _ s₁ ⟨hvalid₁, hsaved⟩
    have hkept := keptOpen_frame.trans hcounted hsaved
    simp only [wp_readClock, Prog.wp_reads]
    split
    · next hdue =>
      have hopen : s₁.targetTransaction.isOpen = true := by
        apply hvalid₁.counted
        unfold TargetTransaction.shouldFlush at hdue
        exact (Bool.and_eq_true _ _ ▸ hdue).1
      refine Prog.wp_mono (wp_commitTargetGroup_failed hopen) (fun _ _ _ => trivial) ?_
      intro _ s' hfailed
      refine keptOpen_frame.trans hkept ⟨hfailed.1.trans hopen.symm, ?_, fun hclosed => ?_⟩
      · exact NoBoundary.trans (.of_trace rfl) hfailed.2
      · rw [hopen] at hclosed
        cases hclosed
    · exact trivial
  · rintro _ s' ⟨-, hsaved⟩
    exact keptOpen_frame.trans hcounted hsaved

/-- BEGIN fails with no transaction, and with the record of none. -/
theorem wp_beginIfNeeded_failed (hsound : s.core.Sound) (hidle : s.core.Idle) :
    Prog.wp (beginIfNeeded world) (fun _ _ => True)
      (fun stop s' => ∀ error, stop = .error error → ∃ message, error = .target message ∧
        s'.targetTransaction = {} ∧ s'.target.transaction = none) s := by
  unfold beginIfNeeded
  simp only [Prog.wp_bind, Prog.wp_reads]
  by_cases hopen : s.targetTransaction.isOpen = true
  · rw [if_pos hopen]
    exact trivial
  · rw [if_neg hopen, Prog.wp_bind]
    have hclosed : s.targetTransaction.isOpen = false := by simpa using hopen
    refine wp_operate_wrapped ?_ ?_
    · intro _ _ _
      exact trivial
    · intro stop hstop error herror
      rcases hstop with rfl | ⟨message, rfl⟩
      · cases herror
      · cases herror
        exact ⟨message, rfl, hidle hclosed, hsound.closed hclosed⟩

/-- The transactional handler fails in one of the listed ways. -/
theorem wp_applyStreamEventTransactionally_failed
    (hmode : config.checkpoint = .targetTable table name) (hsound : s.core.Sound)
    (hidle : s.core.Idle) :
    Prog.wp (applyStreamEventTransactionally world config header event) (fun _ _ => True)
      (fun stop s' => ∀ error, stop = .error error →
        EventFailure world config header event s error s') s := by
  unfold applyStreamEventTransactionally
  simp only [Prog.wp_bind, wp_readClock, Prog.wp_reads]
  set before := world.clock s.tick with hbefore
  set handle : Stream StructuredEventOutcome := do
    let outcome ← Prog.onError (handleStructuredEvent world header event) fun error => do
      rollbackIfOpen world
      stopWith error
    if outcome.policy = .commitTransaction then
      finishSourceTransaction world config event outcome event.isQuery
      pure outcome
    else
      saveOutcomeCheckpoint world config event outcome
      pure outcome with hhandle
  -- From the state in which the handlers find the event on.
  have hready : ∀ s₂, ReadyAt world config event s s₂ →
      Prog.wp handle (fun _ _ => True) (fun stop s' => ∀ error, stop = .error error →
        EventFailure world config header event s error s') s₂ := by
    intro s₂ hs₂
    have hat := hs₂
    obtain ⟨opened, -, hcore⟩ := hat
    have hsound₂ : s₂.core.Sound := by
      rw [hcore]
      exact (StreamCore.ready_advanced config.groupConfig event hsound _).sound
    have hidle₂ : s₂.core.Idle := by
      rw [hcore]
      exact StreamCore.ready_idle hidle _
    have hquiet := quiet_handleStructuredEvent world header event s₂
    rw [hhandle, Prog.wp_bind, Prog.wp_onError]
    refine Prog.wp_of_run ?_ ?_
    · intro outcome s₃ hhandled
      rw [hhandled] at hquiet
      have hclose : ∀ s', KeptOpen s₃ s' → ∀ error, EventFailure world config header event s error s' := by
        intro s' hkept error
        have hopen : s'.targetTransaction.isOpen = s₂.targetTransaction.isOpen :=
          hkept.isOpen.trans hquiet.keptOpen.isOpen
        refine .close hs₂ hhandled hkept.noBoundary hopen fun hclosed => ?_
        rw [hopen] at hclosed
        rw [hkept.record (hquiet.keptOpen.isOpen.trans hclosed), hquiet.record]
        exact hidle₂ hclosed
      split
      · rw [Prog.wp_bind]
        have hvalid : s₃.targetTransaction.Valid := by
          rw [hquiet.record]
          exact hsound₂.valid
        refine Prog.wp_mono (wp_finishSourceTransaction_failed hmode hvalid outcome _) ?_ ?_
        · intro _ _ _
          exact trivial
        · intro _ s' hkept error _
          exact hclose s' hkept error
      · rw [Prog.wp_bind]
        refine Prog.wp_mono (wp_saveOutcomeCheckpoint_keptOpen outcome) ?_ ?_
        · intro _ _ _
          exact trivial
        · intro _ s' hkept error _
          exact hclose s' hkept error
    · intro stop s₃ hfailed
      rw [hfailed] at hquiet
      cases stop with
      | crash =>
        intro error herror
        cases herror
      | error cause =>
        simp only [rollbackIfOpen, finishIfOpen, Prog.wp_bind, Prog.wp_reads]
        cases hopen : s₃.targetTransaction.isOpen with
        | true =>
          simp only [if_true, Prog.wp_bind]
          refine wp_operate_wrapped ?_ ?_
          · intro _ target heffect
            cases heffect
            rintro error ⟨⟩
            refine .rolledBack hs₂ hfailed ?_
            rw [← hquiet.record]
            exact hopen
          · intro stop hstop error herror
            rcases hstop with rfl | ⟨message, rfl⟩
            · cases herror
            · cases herror
              exact .rollbackFailed hs₂ hfailed hopen
        | false =>
          simp only [Bool.false_eq_true, if_false, Prog.wp_pure, wp_stopWith]
          rintro error ⟨⟩
          have hclosed : s₂.targetTransaction.isOpen = false := by
            rw [← hquiet.record]
            exact hopen
          refine .noTransaction hs₂ hfailed ?_ (hsound₂.closed hclosed)
          rw [hquiet.record]
          exact hidle₂ hclosed
  -- From the state after the commit that was due on.
  have hsettled : ∀ s₁, Performed s
      (if s.core.flushesBefore config.groupConfig event before then s.core.flushScript else []) s₁ →
      s₁.core = s.core.settled config.groupConfig event before →
      Prog.wp (do
        let state ← Prog.reads Runtime.state
        if eventCanWriteTarget event state then do
          beginIfNeeded world
          handle
        else handle) (fun _ _ => True) (fun stop s' => ∀ error, stop = .error error →
          EventFailure world config header event s error s') s₁ := by
    intro s₁ hs₁ hcore
    have hstate : s₁.state = (s.core.settled config.groupConfig event before).state :=
      congrArg StreamCore.state hcore
    have hscript : ∀ opened, s.core.readyScript config.groupConfig event ⟨before, opened, 0⟩ =
        (if s.core.flushesBefore config.groupConfig event before then s.core.flushScript
          else []) ++
          if eventCanWriteTarget event s₁.state then s₁.core.beginScript else [] := by
      intro opened
      simp only [StreamCore.readyScript, hcore, hstate]
    have hready' : ∀ opened, s.core.ready config.groupConfig event ⟨before, opened, 0⟩ =
        if eventCanWriteTarget event s₁.state then s₁.core.begun opened else s₁.core := by
      intro opened
      simp only [StreamCore.ready, StreamCore.entered, hcore, hstate]
    have hsound₁ : s₁.core.Sound := by
      rw [hcore]
      exact (StreamCore.settled_advanced config.groupConfig event hsound before).sound
    have hidle₁ : s₁.core.Idle := by
      rw [hcore]
      exact StreamCore.settled_idle hidle before
    rw [Prog.wp_bind, Prog.wp_reads]
    by_cases hcan : eventCanWriteTarget event s₁.state = true
    · simp only [hcan, if_true] at hscript hready'
      rw [if_pos hcan, Prog.wp_bind]
      have hbegun : Prog.wp (beginIfNeeded world)
          (fun _ s₂ => ReadyAt world config event s s₂) (fun _ _ => True) s₁ := by
        refine wp_beginIfNeeded ?_ ?_
        · intro opened s₂ hs₂ hcore₂
          refine ⟨opened, ?_, ?_⟩
          · rw [← hbefore, hscript]
            exact hs₁.trans hs₂
          · rw [← hbefore, hready', hcore₂]
        · intro _ _ _
          exact trivial
      refine Prog.wp_mono (Prog.wp_and hbegun (wp_beginIfNeeded_failed hsound₁ hidle₁)) ?_ ?_
      · rintro _ s₂ ⟨hs₂, -⟩
        exact hready s₂ hs₂
      · rintro stop s' ⟨-, hfailed⟩ error herror
        obtain ⟨message, rfl, hrecord, hnone⟩ := hfailed error herror
        exact .begin hrecord hnone
    · simp only [hcan] at hscript hready'
      rw [if_neg hcan]
      refine hready s₁ ⟨0, ?_, ?_⟩
      · rw [← hbefore, hscript]
        simpa using hs₁
      · rw [← hbefore, hready']
        exact rfl
  split
  · next hflush =>
    have hflush : s.core.flushesBefore config.groupConfig event before = true := hflush
    rw [Prog.wp_bind]
    rw [if_pos hflush] at hsettled
    simp only [StreamCore.settled, hflush, if_true] at hsettled
    have hvalid : (s.advance).targetTransaction.Valid := hsound.valid
    have hflushed : Prog.wp (flushGroupedTransaction world config)
        (fun _ s₁ => Performed s s.core.flushScript s₁ ∧ s₁.core = s.core.flushed)
        (fun _ _ => True) s.advance := by
      refine wp_flushGroupedTransaction hmode hvalid ?_ ?_
      · intro s₁ hs₁ hcore₁
        exact ⟨⟨hs₁.trace, hs₁.durable⟩, hcore₁⟩
      · intro _ _ _
        exact trivial
    refine Prog.wp_mono (Prog.wp_and hflushed (wp_flushGroupedTransaction_failed hvalid)) ?_ ?_
    · rintro _ s₁ ⟨⟨hs₁, hcore₁⟩, -⟩
      exact hsettled s₁ hs₁ hcore₁
    · rintro stop s' ⟨-, hopen, hquiet⟩ error _
      exact .commitBefore hopen (NoBoundary.trans (.of_trace rfl) hquiet)
  · next hflush =>
    have hflush : ¬s.core.flushesBefore config.groupConfig event before = true := hflush
    rw [if_neg hflush] at hsettled
    simp only [StreamCore.settled, hflush] at hsettled
    exact hsettled _ (Performed.refl rfl rfl) rfl

/-- A world in which the operation at a tick is refused. -/
def refusingWorld (last : Nat) : World :=
  { quietWorld fun _ => 0 with
    outcome := fun tick => if tick = last then .refused "connection lost" else .done }

/-- Every source transaction is committed by itself. -/
def singleConfig : StreamConfig := ⟨"source", ⟨1, 0⟩, .targetTable "cdc" "stream"⟩

/-- The end of a transaction of one row is about to be handled. -/
def beforeEnd (world : World) : Runtime :=
  let handled := (streamEvents world singleConfig [tableMapAt 20, insertAt 30 1]
    (Runtime.attempt freshDb none (some "app") "bin.000001")).2
  { handled with state := handled.state.recordEventPosition 30 }

/-- The stream reaches that state where only the commit is refused. -/
theorem beforeEnd_reached : ReachedBefore (refusingWorld 9) singleConfig (beforeEnd (refusingWorld 9)) :=
  ⟨⟨_, _, _, _, _, _, _, Prog.reaches_of_ok (by decide +kernel), rfl⟩⟩

end Failed

end BinlogCdc
