import BinlogCdc.Stream.Dispatch

/-!
# The stream's record and its connection

The stream keeps its own record of whether its target transaction is open. The record is
right after every event, and every operation finds the connection as it expects it, as
long as no replayed statement commits by itself and no DDL event meets a transaction in
which no source transaction is complete: the commit before a DDL event leaves such a
transaction open, and the DDL ends it behind the record.
-/

namespace BinlogCdc

/-! ## What operations expect of the connection -/

/-- The operation ends an open transaction by itself. -/
def TargetOp.EndsTransaction : TargetOp → Prop
  | .begin => True
  | .executeDdl _ _ => True
  | _ => False

/-- The operation belongs into a transaction. -/
def TargetOp.NeedsTransaction : TargetOp → Prop
  | .rowChange _ _ => True
  | .replay _ _ => True
  | .saveCheckpoint _ => True
  | .markCheckpointed _ => True
  | .commit => True
  | _ => False

/-- The operation found the connection as it expects it, and only a commit makes work durable. -/
structure TraceEntry.Tracked (x : TraceEntry) : Prop where
  /-- No transaction is ended on the side. -/
  free : x.op.EndsTransaction → x.before.transaction = none
  /-- Nothing is applied outside of a transaction. -/
  inside : x.op.NeedsTransaction → x.before.transaction.isSome = true
  /-- Only a commit makes work durable. -/
  durable : x.op ≠ .commit → x.op ≠ .rollback → x.after.db.work = x.before.db.work

/-- A change inside a transaction makes nothing durable. -/
theorem Target.change_db_of_isSome {target : Target} (h : target.transaction.isSome = true)
    (f : TargetChanges → TargetChanges) : (target.change f).db = target.db := by
  obtain ⟨changes, hchanges⟩ := Option.isSome_iff_exists.mp h
  rw [Target.change_of_some hchanges]

theorem Target.savePending_isSome (target : Target) (pending : Option Checkpoint) :
    (target.savePending pending).transaction.isSome = target.transaction.isSome := by
  cases pending with
  | none => rfl
  | some checkpoint => exact target.change_transaction_isSome _

/-- A group is committed inside its transaction. -/
theorem commitScript_tracked {target : Target} (h : target.transaction.isSome = true)
    {pending : Option Checkpoint} {x : TraceEntry} (hx : x ∈ commitScript target pending) :
    x.Tracked := by
  rcases List.mem_append.mp hx with hx | hx
  · cases pending with
    | none => cases hx
    | some checkpoint =>
      simp only [saveScript, List.mem_cons, List.not_mem_nil, or_false] at hx
      rcases hx with rfl | rfl
      · exact ⟨False.elim, False.elim, fun _ _ => rfl⟩
      · exact ⟨False.elim, fun _ => h, fun _ _ =>
          congrArg TargetDb.work (target.change_db_of_isSome h _)⟩
  · obtain rfl := List.mem_singleton.mp hx
    exact ⟨False.elim, fun _ => (target.savePending_isSome pending).trans h,
      fun hcommit => absurd rfl hcommit⟩

/-- Work that does not end a transaction is applied inside one. -/
theorem workScript_tracked {target : Target} (h : target.transaction.isSome = true)
    {work : List TargetWork} (hkeeps : ∀ w ∈ work, w.KeepsTransaction) {x : TraceEntry}
    (hx : x ∈ workScript target work) : x.Tracked := by
  induction work generalizing target with
  | nil => cases hx
  | cons w rest ih =>
    have hw := hkeeps w List.mem_cons_self
    rcases List.mem_cons.mp hx with rfl | hx
    · refine ⟨?_, fun _ => h, fun _ _ => ?_⟩
      · cases w <;> exact False.elim
      · cases w with
        | rowChange source change =>
          exact congrArg TargetDb.work (target.change_db_of_isSome h _)
        | statement source sql =>
          simp only [TargetWork.KeepsTransaction] at hw
          simp only [Target.applyOne, Target.replay, hw, Bool.false_eq_true, if_false]
          exact congrArg TargetDb.work (target.change_db_of_isSome h _)
    · exact ih ((Target.applyOne_isSome hw).trans h)
        (fun v hv => hkeeps v (List.mem_cons_of_mem _ hv)) hx

/-- An operation that changes nothing on the stream's connection is tracked. -/
theorem storeScript_tracked {c : StreamCore} {checkpoint : Checkpoint} {x : TraceEntry}
    (hx : x ∈ c.storeScript checkpoint) : x.Tracked := by
  unfold StreamCore.storeScript at hx
  split at hx
  · cases hx
  · rcases List.mem_append.mp hx with hx | hx
    · split at hx
      · obtain rfl := List.mem_singleton.mp hx
        exact ⟨False.elim, False.elim, fun _ _ => rfl⟩
      · cases hx
    · split at hx
      · cases hx
      · obtain rfl := List.mem_singleton.mp hx
        exact ⟨False.elim, False.elim, fun _ _ => rfl⟩

theorem savedScript_tracked {c : StreamCore} {event : BinlogEvent}
    {resume : Option BinlogCoordinate} {x : TraceEntry} (hx : x ∈ c.savedScript event resume) :
    x.Tracked := by
  unfold StreamCore.savedScript at hx
  split at hx
  · cases hx
  · split at hx
    · cases hx
    · exact storeScript_tracked hx

/-- An event with work may write to the target. -/
theorem Reader.canWrite_of_work {codec : RowCodec} {reader : Reader} {header : EventHeader}
    {event : BinlogEvent} (h : reader.work codec header event ≠ []) :
    eventCanWriteTarget event reader.state = true := by
  unfold Reader.work at h
  cases event with
  | query query =>
    dsimp only at h
    split at h
    · next hreplays =>
      unfold replaysStatement at hreplays
      split at hreplays
      · next hcheck =>
        unfold queryEventPrecheck at hcheck
        dsimp only at hcheck
        split at hcheck
        · cases hcheck
        · next hdml =>
          split at hcheck
          · cases hcheck
          · next hschema =>
            have happly : reader.state.shouldApplySchema query.databaseName = true := by
              simpa using hschema
            simp only [happly, Bool.true_or, Bool.and_true] at hdml
            simp [eventCanWriteTarget, happly, hdml]
      · cases hreplays
    · exact absurd rfl h
  | writeRows rows =>
    by_cases hignored : reader.state.isIgnoredTableId rows.tableId = true
    · exact absurd (by simp [rowsIgnored, hignored]) h
    · simp [eventCanWriteTarget, hignored]
  | updateRows rows =>
    by_cases hignored : reader.state.isIgnoredTableId rows.tableId = true
    · exact absurd (by simp [rowsIgnored, hignored]) h
    · simp [eventCanWriteTarget, hignored]
  | deleteRows rows =>
    by_cases hignored : reader.state.isIgnoredTableId rows.tableId = true
    · exact absurd (by simp [rowsIgnored, hignored]) h
    · simp [eventCanWriteTarget, hignored]
  | _ => exact absurd rfl h

/-! ## Events inside the target transaction -/

namespace StreamCore

variable {codec : RowCodec} {config : TargetTransactionGroupConfig} {c : StreamCore}
  {header : EventHeader} {event : BinlogEvent} {now : Readings} {x : TraceEntry}

/-- A group with complete source transactions is open on the connection. -/
theorem Sound.isSome_of_counted (hsound : c.Sound) (hpaired : c.Paired)
    (hcount : c.targetTransaction.hasCompletedSourceTransactions = true) :
    c.target.transaction.isSome = true := by
  rw [← hpaired]
  exact hsound.valid.counted hcount

theorem flushScript_tracked (hsound : c.Sound) (hpaired : c.Paired) (hx : x ∈ c.flushScript) :
    x.Tracked := by
  unfold flushScript at hx
  split at hx
  · next hcount => exact commitScript_tracked (hsound.isSome_of_counted hpaired hcount) hx
  · cases hx

theorem beginScript_tracked (hsound : c.Sound) (hx : x ∈ c.beginScript) : x.Tracked := by
  unfold beginScript at hx
  split at hx
  · cases hx
  · next hclosed =>
    obtain rfl := List.mem_singleton.mp hx
    have hnone := hsound.closed (by simpa using hclosed)
    exact ⟨fun _ => hnone, False.elim, fun _ _ => by simp [Target.view_of_none hnone]⟩

/-- Before the handlers write, the transaction is open. -/
theorem ready_isSome (hpaired : c.Paired) (hwrite : eventCanWriteTarget event c.state = true) :
    (c.ready config event now).target.transaction.isSome = true := by
  have hready := ready_paired config event hpaired now
  rw [← hready]
  unfold ready entered begun
  have hstate : (c.settled config event now.before).state = c.state :=
    congrArg Reader.state (settled_reader now.before)
  rw [hstate, if_pos hwrite]
  split
  · next hopen => exact hopen
  · rfl

/-- Every operation of an event whose work does not end a transaction is tracked. -/
theorem eventScript_tracked (hsound : c.Sound) (hpaired : c.Paired)
    (hkeeps : ∀ w ∈ c.reader.work codec header event, w.KeepsTransaction)
    (hx : x ∈ c.eventScript codec config header event now) : x.Tracked := by
  have hready := ready_advanced config event hsound now
  have hhandled := hready.handled codec header event
  simp only [ready_reader] at hhandled
  rcases List.mem_append.mp hx with hx | hx
  · rcases List.mem_append.mp hx with hx | hx
    · split at hx
      · exact flushScript_tracked hsound hpaired hx
      · cases hx
    · split at hx
      · exact beginScript_tracked (settled_advanced config event hsound now.before).sound hx
      · cases hx
  · rcases List.mem_append.mp hx with hx | hx
    · rcases List.mem_append.mp hx with hx | hx
      · unfold contextScript at hx
        split at hx
        · split at hx
          · obtain ⟨intvar, -, rfl⟩ := List.mem_map.mp hx
            exact ⟨False.elim, False.elim, fun _ _ => rfl⟩
          · cases hx
        · cases hx
      · rw [ready_reader] at hx
        have hwork : c.reader.work codec header event ≠ [] := by
          intro hnil
          rw [hnil] at hx
          cases hx
        exact workScript_tracked (ready_isSome hpaired (Reader.canWrite_of_work hwork)) hkeeps hx
    · unfold closeScript at hx
      simp only [ready_reader] at hx
      split at hx
      · rcases List.mem_append.mp hx with hx | hx
        · exact savedScript_tracked hx
        · split at hx
          · next hdue =>
            have hpairedHandled :
                ((c.ready config event now).handled codec header event).Paired := by
              unfold Paired handled
              rw [ready_reader, Target.applyAll_isSome hkeeps]
              exact ready_paired config event hpaired now
            have hlast := saved_sound event hhandled.counted.sound (c.reader.resume header event)
            have hcount := (Bool.and_eq_true _ _ ▸ hdue : _ ∧ _).1
            exact commitScript_tracked (hlast.1.isSome_of_counted
              (saved_paired (counted_paired hpairedHandled) _) hcount) hx
          · cases hx
      · exact savedScript_tracked hx

end StreamCore

/-! ## DDL events -/

/-- A look changes nothing that is tracked. -/
theorem TraceEntry.tracked_of_isLook {op : TargetOp} (hop : op.IsLook) (target : Target) :
    TraceEntry.Tracked ⟨op, target, target⟩ := by
  refine ⟨?_, ?_, fun _ _ => rfl⟩
  · cases op <;> first | exact False.elim | exact hop.elim
  · cases op <;> first | exact False.elim | exact hop.elim

theorem TraceEntry.tracked_of_rollback {x : TraceEntry} (hop : x.op = .rollback) : x.Tracked := by
  refine ⟨?_, ?_, fun _ hrollback => absurd hop hrollback⟩
  · rw [hop]
    exact False.elim
  · rw [hop]
    exact False.elim

/-- With a free connection every operation of the DDL handler is tracked. -/
theorem DdlAction.tracked {semantics : DdlSemantics} {event : DdlEvent} {committing : Bool}
    {target target' : Target} {trace : List TraceEntry} {op : TargetOp}
    (haction : DdlAction semantics none event committing target trace op target') :
    TraceEntry.Tracked ⟨op, target, target'⟩ := by
  have hnone : target.Free none → target.transaction = none := fun hfree => by
    simpa using hfree.transaction
  cases haction with
  | look hop => exact TraceEntry.tracked_of_isLook hop target
  | recordPending => exact ⟨False.elim, False.elim, fun _ _ => rfl⟩
  | prepare => exact ⟨False.elim, False.elim, fun _ _ => rfl⟩
  | markApplied => exact ⟨False.elim, False.elim, fun _ _ => rfl⟩
  | markBlocked => exact ⟨False.elim, False.elim, fun _ _ => rfl⟩
  | recover => exact ⟨False.elim, False.elim, fun _ _ => rfl⟩
  | executeLegacy sql hfree =>
    exact ⟨fun _ => hnone hfree, False.elim, fun _ _ => by simp [Target.view_of_none (hnone hfree)]⟩
  | begin hfree =>
    exact ⟨fun _ => hnone hfree, False.elim, fun _ _ => by simp [Target.view_of_none (hnone hfree)]⟩
  | mark ht =>
    exact ⟨False.elim, fun _ => by simp [ht], fun _ _ =>
      congrArg TargetDb.work (target.change_db_of_isSome (by simp [ht]) _)⟩
  | save ht =>
    exact ⟨False.elim, fun _ => by simp [ht], fun _ _ =>
      congrArg TargetDb.work (target.change_db_of_isSome (by simp [ht]) _)⟩
  | commit _ ht => exact ⟨False.elim, fun _ => by simp [ht], fun hcommit => absurd rfl hcommit⟩
  | rollback => exact TraceEntry.tracked_of_rollback rfl

/-- With a free connection a run of the DDL handler is tracked. -/
theorem DdlRun.tracked {semantics : DdlSemantics} {event : DdlEvent} {committing : Bool}
    {s s' : Runtime} (hrun : DdlRun semantics none event committing s s')
    (h : ∀ x ∈ s.trace, x.Tracked) : ∀ x ∈ s'.trace, x.Tracked := by
  induction hrun with
  | refl => exact h
  | tail _ step ih =>
    intro x hx
    cases step with
    | quiet _ htrace => exact ih x (htrace ▸ hx)
    | act haction =>
      rcases List.mem_append.mp hx with hx | hx
      · exact ih x hx
      · obtain rfl := List.mem_singleton.mp hx
        exact haction.tracked
    | prepareAndExecute evidence sql hfree =>
      simp only [Runtime.perform_trace, Runtime.perform_target, List.mem_append,
        List.mem_singleton] at hx
      have hnone := (by simpa using hfree.transaction : Target.transaction _ = none)
      rcases hx with (hx | rfl) | rfl
      · exact ih x hx
      · exact ⟨False.elim, False.elim, fun _ _ => rfl⟩
      · exact ⟨fun _ => hnone, False.elim, fun _ _ => by simp [Target.view, hnone]⟩

/-- With a checkpointed row the handler only looks, and at most rolls back. -/
theorem DdlAction.of_checkpointed {semantics : DdlSemantics} {entry : Option TargetChanges}
    {event : DdlEvent} {committing : Bool} {target target' : Target} {trace : List TraceEntry}
    {op : TargetOp} (haction : DdlAction semantics entry event committing target trace op target')
    {evidence : DdlSemanticEvidence}
    (hrow : target.db.journal.row event = some ⟨event, evidence, .checkpointed⟩) :
    (op.IsLook ∧ target' = target) ∨ (op = .rollback ∧ target' = target.rollback) := by
  have hother : ∀ {status : DdlReplayStatus}, status ≠ .checkpointed →
      ¬∃ other, target.db.journal.row event = some ⟨event, other, status⟩ := by
    rintro status hne ⟨other, hother⟩
    rw [hrow] at hother
    cases hother
    exact hne rfl
  cases haction with
  | look hop => exact Or.inl ⟨hop, rfl⟩
  | rollback => exact Or.inr ⟨rfl, rfl⟩
  | recordPending hnone => simp [hrow] at hnone
  | prepare _ hunprepared =>
    rcases hunprepared with h | h
    · simp [hrow] at h
    · exact absurd ⟨_, h⟩ (hother nofun)
  | markApplied old h => exact absurd ⟨old, h⟩ (hother nofun)
  | markBlocked old h => exact absurd ⟨old, h⟩ (hother nofun)
  | recover old _ h => exact absurd ⟨old, h⟩ (hother nofun)
  | executeLegacy _ _ _ h => exact absurd h (hother nofun)
  | begin _ h => exact absurd h (hother nofun)
  | mark _ h => exact absurd h (hother nofun)
  | save _ h => exact absurd h (hother nofun)
  | commit _ _ h => exact absurd h (hother nofun)

/-- The handler of a checkpointed event does nothing that needs the connection. -/
theorem DdlRun.tracked_of_checkpointed {semantics : DdlSemantics} {entry : Option TargetChanges}
    {event : DdlEvent} {committing : Bool} {s s' : Runtime}
    (hrun : DdlRun semantics entry event committing s s')
    (hrow : s.target.db.journal.Holds event .checkpointed) (h : ∀ x ∈ s.trace, x.Tracked) :
    s'.target.db.journal.Holds event .checkpointed ∧ ∀ x ∈ s'.trace, x.Tracked := by
  induction hrun with
  | refl => exact ⟨hrow, h⟩
  | tail _ step ih =>
    obtain ⟨⟨evidence, hholds⟩, htracked⟩ := ih
    cases step with
    | quiet htarget htrace => exact ⟨⟨evidence, htarget ▸ hholds⟩, htrace ▸ htracked⟩
    | act haction =>
      rcases haction.of_checkpointed hholds with ⟨hop, rfl⟩ | ⟨rfl, rfl⟩
      · refine ⟨⟨evidence, hholds⟩, fun x hx => ?_⟩
        rcases List.mem_append.mp hx with hx | hx
        · exact htracked x hx
        · obtain rfl := List.mem_singleton.mp hx
          exact TraceEntry.tracked_of_isLook hop _
      · refine ⟨⟨evidence, hholds⟩, fun x hx => ?_⟩
        rcases List.mem_append.mp hx with hx | hx
        · exact htracked x hx
        · obtain rfl := List.mem_singleton.mp hx
          exact TraceEntry.tracked_of_rollback rfl
    | prepareAndExecute _ _ _ hunprepared =>
      rcases hunprepared with hnone | hpending
      · simp [hholds] at hnone
      · simp [hholds] at hpending

/-! ## Whole runs -/

section Runs

variable (world : World) (config : StreamConfig) (s : Runtime) (inputs : List SourceStreamEvent)

/-- After every event the record agrees with the connection, and every operation found the
connection as it expects it. -/
def TransactionTracked : Prop :=
  (∀ handled rest s₁, inputs = handled ++ rest →
    (streamEvents world config handled).Reaches s s₁ → s₁.core.Paired) ∧
  ∀ x ∈ (streamEvents world config inputs s).2.trace, x.Tracked

/-- No replayed statement commits by itself, and a DDL event that is still to be executed or
checkpointed meets no transaction without a complete source transaction. -/
def DdlMeetsCompleteGroups : Prop :=
  ∀ handled input rest s₁, inputs = handled ++ input :: rest →
    (streamEvents world config handled).Reaches s s₁ →
    (∀ w ∈ s₁.core.reader.dispatchWork world.semantics world.codec input, w.KeepsTransaction) ∧
    ∀ query, s₁.core.reader.routeOf world.semantics input = .automatic query →
      s₁.targetTransaction.isOpen = true →
      s₁.targetTransaction.hasCompletedSourceTransactions = true ∨
        s₁.target.db.journal.Holds (s₁.core.ddlEvent config input query) .checkpointed

variable {world config s inputs} {table name : String}

/-- After the commit before a DDL event the record agrees with the connection. -/
theorem StreamCore.flushed_paired {c : StreamCore} (h : c.Paired) : c.flushed.Paired := by
  unfold StreamCore.flushed
  split
  · rfl
  · exact h

/-- One event keeps record and connection together. -/
theorem wp_processStreamEvent_tracked (hmode : config.checkpoint = .targetTable table name)
    {s₁ : Runtime} (hsound : s₁.core.Sound) (hpaired : s₁.core.Paired)
    (htracked : ∀ x ∈ s₁.trace, x.Tracked) {input : SourceStreamEvent}
    (hkeeps : ∀ w ∈ s₁.core.reader.dispatchWork world.semantics world.codec input,
      w.KeepsTransaction)
    (hddl : ∀ query, s₁.core.reader.routeOf world.semantics input = .automatic query →
      s₁.targetTransaction.isOpen = true →
      s₁.targetTransaction.hasCompletedSourceTransactions = true ∨
        s₁.target.db.journal.Holds (s₁.core.ddlEvent config input query) .checkpointed) :
    Prog.wp (processStreamEvent world config input)
      (fun _ s' => s'.core.Paired ∧ ∀ x ∈ s'.trace, x.Tracked)
      (fun _ s' => ∀ x ∈ s'.trace, x.Tracked) s₁ := by
  have hlocated : (s₁.core.located input.sourcePosition).Paired := hpaired
  have hwork : s₁.core.reader.routeOf world.semantics input = .transactional →
      ∀ w ∈ (s₁.core.located input.sourcePosition).reader.work world.codec input.header input.event,
        w.KeepsTransaction := by
    intro hroute
    simp only [Reader.dispatchWork, hroute] at hkeeps
    exact hkeeps
  have hscript : s₁.core.reader.routeOf world.semantics input = .transactional → ∀ now, ∀ x ∈
      s₁.core.inputScript world.codec config.groupConfig input now, x.Tracked := fun hroute now x =>
    StreamCore.eventScript_tracked (hsound.located _) hlocated (hwork hroute)
  have hflush : ∀ x ∈ s₁.core.flushScript, x.Tracked := fun x =>
    StreamCore.flushScript_tracked hsound hpaired
  have hflushed : ∀ {s₂ : Runtime}, Performed s₁ s₁.core.flushScript s₂ →
      ∀ x ∈ s₂.trace, x.Tracked := by
    intro s₂ hs₂ x hx
    rw [hs₂.trace, List.mem_append] at hx
    rcases hx with hx | hx
    · exact htracked x hx
    · exact hflush x hx
  have hstopped : ∀ {script : List TraceEntry} {s' : Runtime}, (∀ x ∈ script, x.Tracked) →
      Stopped s₁ script s' → ∀ x ∈ s'.trace, x.Tracked := by
    intro script s' hscript hs' x hx
    rcases hs'.mem_trace hx with hx | hx | hrollback
    · exact htracked x hx
    · exact hscript x hx
    · exact TraceEntry.tracked_of_rollback hrollback
  -- A DDL event finds the connection free, or its row is checkpointed already.
  have hfree : ∀ (query : QueryEvent) (s₂ : Runtime), s₁.core.reader.routeOf world.semantics input = .automatic query →
      s₂.core = (s₁.core.located input.sourcePosition).flushed →
      s₂.target.transaction = none ∨
        s₂.target.db.journal.Holds (s₁.core.ddlEvent config input query) .checkpointed := by
    intro query s₂ hroute hcore
    have htarget : s₂.target = (s₁.core.located input.sourcePosition).flushed.target :=
      congrArg StreamCore.target hcore
    rw [htarget]
    unfold StreamCore.flushed
    split
    · exact Or.inl rfl
    · next hcount =>
      by_cases hopen : s₁.targetTransaction.isOpen = true
      · exact Or.inr ((hddl query hroute hopen).resolve_left hcount)
      · exact Or.inl (hsound.closed (by simpa using hopen))
  have hrun : ∀ (query : QueryEvent) (committing : Bool) (s₂ s' : Runtime),
      s₁.core.reader.routeOf world.semantics input = .automatic query →
      Performed s₁ s₁.core.flushScript s₂ →
      s₂.core = (s₁.core.located input.sourcePosition).flushed →
      DdlRun world.semantics s₂.target.transaction (s₁.core.ddlEvent config input query)
        committing s₂ s' →
      ∀ x ∈ s'.trace, x.Tracked := by
    intro query committing s₂ s' hroute hs₂ hcore hrun
    rcases hfree query s₂ hroute hcore with hnone | hholds
    · rw [hnone] at hrun
      exact hrun.tracked (hflushed hs₂)
    · exact (hrun.tracked_of_checkpointed hholds (hflushed hs₂)).2
  refine wp_processStreamEvent hmode hsound ?_ ?_ ?_ ?_ ?_ ?_
  · intro now s' hroute _ hs' hcore
    constructor
    · rw [hcore]
      exact StreamCore.applied_paired hlocated (hwork hroute) now
    · intro x hx
      rw [hs'.trace, List.mem_append] at hx
      rcases hx with hx | hx
      · exact htracked x hx
      · exact hscript hroute now x hx
  · intro now stop s' hroute _ hs'
    exact hstopped (hscript hroute now) hs'
  · intro stop s' _ hs'
    exact hstopped hflush hs'
  · intro query s₂ s' hroute hs₂ hcore hddlRun hend
    refine ⟨?_, hrun query _ s₂ s' hroute hs₂ hcore hddlRun⟩
    have hpaired₂ : s₂.core.Paired := hcore ▸ StreamCore.flushed_paired hlocated
    have hrecord := hddlRun.record.1
    rcases hend with ⟨hnone, hnot⟩ | ⟨hlooked, -⟩
    · have hnone₂ := (hfree query s₂ hroute hcore).resolve_right hnot
      unfold StreamCore.Paired at hpaired₂ ⊢
      simp only [Runtime.core_targetTransaction, Runtime.core_target, hrecord, hnone,
        hnone₂] at hpaired₂ ⊢
      exact hpaired₂
    · unfold StreamCore.Paired at hpaired₂ ⊢
      simp only [Runtime.core_targetTransaction, Runtime.core_target, hrecord,
        hlooked.target] at hpaired₂ ⊢
      exact hpaired₂
  · intro query s₂ stop s' hroute hs₂ hcore hddlRun
    exact hrun query _ s₂ s' hroute hs₂ hcore hddlRun
  · intro query s₂ stop s' _ hs₂ _ hddlRun
    exact hddlRun.tracked (hflushed hs₂)

theorem DdlMeetsCompleteGroups.append_left {handled rest : List SourceStreamEvent}
    (h : DdlMeetsCompleteGroups world config s (handled ++ rest)) :
    DdlMeetsCompleteGroups world config s handled := by
  rintro before input after s₁ rfl hreaches
  exact h before input (after ++ rest) s₁ (by simp) hreaches

/-- A run keeps record and connection together event by event. -/
theorem wp_streamEvents_tracked (hmode : config.checkpoint = .targetTable table name)
    (hsound : s.core.Sound) (hpaired : s.core.Paired) (htracked : ∀ x ∈ s.trace, x.Tracked)
    (hgroups : DdlMeetsCompleteGroups world config s inputs) :
    Prog.wp (streamEvents world config inputs)
      (fun _ s' => s'.core.Paired ∧ ∀ x ∈ s'.trace, x.Tracked)
      (fun _ s' => ∀ x ∈ s'.trace, x.Tracked) s := by
  refine Prog.wp_mono (Prog.wp_forEach (fun handled s' => s'.core.Sound ∧ (s'.core.Paired ∧
    ∀ x ∈ s'.trace, x.Tracked) ∧ (streamEvents world config handled).Reaches s s') inputs
    (processStreamEvent world config) ?_ ⟨hsound, ⟨hpaired, htracked⟩, rfl⟩)
    (fun _ _ h => h.2.1) fun _ _ h => h
  rintro handled input rest s' hinputs ⟨hsound', ⟨hpaired', htracked'⟩, hreaches⟩
  obtain ⟨hkeeps, hddl⟩ := hgroups handled input rest s' hinputs.symm hreaches
  have hone := wp_processStreamEvent_tracked hmode hsound' hpaired' htracked' hkeeps hddl
  refine Prog.wp_reaches (Prog.wp_mono
    (Prog.wp_and (wp_processStreamEvent_ledger hmode hsound' input) hone) ?_ fun _ _ h => h.2)
  rintro _ s'' ⟨hconsumed, htogether⟩ hreaches'
  exact ⟨hconsumed.sound, htogether, hreaches.snoc hreaches'⟩

end Runs

/-- In target-table mode, as long as no replayed statement commits by itself and no DDL event
meets a transaction without a complete source transaction, the record of the open transaction is
right and every operation finds the connection as it expects it. -/
theorem transaction_tracked (world : World) (sourceIdentity table name : String)
    (groupConfig : TargetTransactionGroupConfig) (db : TargetDb)
    (lastCheckpoint : Option Checkpoint) (sourceDatabase : Option String) (currentFile : String)
    (inputs : List SourceStreamEvent)
    (hgroups : DdlMeetsCompleteGroups world ⟨sourceIdentity, groupConfig, .targetTable table name⟩
      (.attempt db lastCheckpoint sourceDatabase currentFile) inputs) :
    TransactionTracked world ⟨sourceIdentity, groupConfig, .targetTable table name⟩
      (.attempt db lastCheckpoint sourceDatabase currentFile) inputs := by
  have hmode : (StreamConfig.mk sourceIdentity groupConfig (.targetTable table name)).checkpoint =
      .targetTable table name := rfl
  have hsound := Runtime.attempt_sound db lastCheckpoint sourceDatabase currentFile
  have hpaired : (Runtime.attempt db lastCheckpoint sourceDatabase currentFile).core.Paired := rfl
  have htracked : ∀ x ∈ (Runtime.attempt db lastCheckpoint sourceDatabase currentFile).trace,
      x.Tracked := fun x hx => nomatch hx
  constructor
  · rintro handled rest s₁ rfl hreaches
    have hrun := wp_streamEvents_tracked hmode hsound hpaired htracked hgroups.append_left
    exact (Prog.wp_value hrun hreaches).1
  · have hrun := wp_streamEvents_tracked hmode hsound hpaired htracked hgroups
    exact Prog.wp_final (Prog.wp_mono hrun (fun _ _ h => h.2) fun _ _ h => h)

/-- A column is added to the table `t`. -/
def alterSql : String := "ALTER TABLE t ADD COLUMN c INT"

/-- A world whose translator accepts the new column; the target has it from a tick on. -/
def alterWorld (executed : Nat) : World :=
  { quietWorld fun _ => 0 with
    semantics := { (quietWorld fun _ => 0).semantics with
      supportsAutomaticDdlOperation := fun sql _ => sql == alterSql }
    inventory := fun tick => {
      transformSql := fun sql _ => .ok ⟨ddlTransformationVersion, some sql⟩
      captureEvidence := fun sql _ _ _ =>
        .ok ⟨ddlTransformationVersion, some sql, sql, "without c", "with c"⟩
      observeTargetState := fun _ _ => .ok (if tick < executed then "without c" else "with c")
      expectedTargetState := fun _ _ => .ok "with c" } }

/-- A row whose transaction ends with a COMMIT statement, the new column, and another row. -/
def alterAfterCommitQuery : List SourceStreamEvent :=
  [tableMapAt 20, insertAt 30 1, queryAt 40 "COMMIT", queryAt 50 alterSql, tableMapAt 60,
    insertAt 70 2]

/-- The COMMIT statement is not counted, so the new column ends the transaction behind the
record, and the next row is applied outside of a transaction. -/
theorem transaction_not_tracked_after_commit_query :
    ¬TransactionTracked (alterWorld 12) ⟨"source", ⟨1, 0⟩, .targetTable "cdc" "stream"⟩
      (.attempt freshDb none (some "app") "bin.000001") alterAfterCommitQuery := by
  intro h
  have hreaches : (streamEvents (alterWorld 12) ⟨"source", ⟨1, 0⟩, .targetTable "cdc" "stream"⟩
      alterAfterCommitQuery).Reaches (.attempt freshDb none (some "app") "bin.000001") _ :=
    Prog.reaches_of_ok (by decide +kernel)
  have hpaired := h.1 alterAfterCommitQuery [] _ (by simp) hreaches
  revert hpaired
  unfold StreamCore.Paired
  decide +kernel

/-- A row whose transaction ends with an Xid, the new column, and another row. -/
def alterAfterXid : List SourceStreamEvent :=
  [tableMapAt 20, insertAt 30 1, eventAt 40 (.xid 1), queryAt 50 alterSql, tableMapAt 60,
    insertAt 70 2]

/-- The commit before the new column ends the group of the first row. -/
theorem transaction_tracked_after_xid :
    TransactionTracked (alterWorld 16) ⟨"source", ⟨5, 0⟩, .targetTable "cdc" "stream"⟩
      (.attempt freshDb none (some "app") "bin.000001") alterAfterXid := by
  refine transaction_tracked _ _ _ _ _ _ _ _ _ _ ?_
  intro handled input rest s₁ hinputs hreaches
  -- The handled events are a beginning of the six events of the run.
  have hrun : ∀ n < 6, ∀ input ∈ alterAfterXid[n]?,
      let s₁ := (streamEvents (alterWorld 16) ⟨"source", ⟨5, 0⟩, .targetTable "cdc" "stream"⟩
        (alterAfterXid.take n) (.attempt freshDb none (some "app") "bin.000001")).2
      (∀ w ∈ s₁.core.reader.dispatchWork (alterWorld 16).semantics (alterWorld 16).codec input,
          w.KeepsTransaction) ∧
        (s₁.core.reader.routeOf (alterWorld 16).semantics input = .transactional ∨
          s₁.targetTransaction.hasCompletedSourceTransactions = true) := by decide +kernel
  have hlength : handled.length < 6 := by
    have hsix := congrArg List.length hinputs
    simp only [List.length_append, List.length_cons] at hsix
    change 6 = _ at hsix
    omega
  have hstep := hrun handled.length hlength input (by rw [hinputs]; simp)
  rw [hinputs, List.take_left, show (streamEvents _ _ _ _) = _ from hreaches] at hstep
  refine ⟨hstep.1, fun query hroute _ => Or.inl (hstep.2.resolve_left ?_)⟩
  rw [hroute]
  nofun

end BinlogCdc
